import Easel.Brush
import Mathlib.Algebra.Order.Ring.Abs
import Mathlib.Tactic.Lemma
import Mathlib.Tactic.Linarith

/-!
# What stamps paint

A canvas is known by the colors of its cells (`Canvas.ext_get?`), and stamps paint the cells of
their disks (`mem_disk`) and no other (`Canvas.get?_stampAll`). So neither the order of stamps nor
their number counts: two series of stamps of one radius and color paint the same if every cell in a
disk of the one is in a disk of the other (`Canvas.stampAll_congr`). What a series of stamps leaves
is known by its centres (`Canvas.stamped_stampAll`).
-/

namespace Easel

/-- A point is in the disk of a radius around another. -/
def Point.InDisk (q centre : Point) (radius : Nat) : Prop :=
  (q.x - centre.x) ^ 2 + (q.y - centre.y) ^ 2 ≤ (radius : Int) ^ 2

/-- The offsets that are tried leave out no point of a disk that is on the canvas. -/
lemma mem_disk {size radius : Nat} {centre q : Point} :
    q ∈ disk size centre radius ↔
      ((0 ≤ q.x ∧ q.x < size) ∧ 0 ≤ q.y ∧ q.y < size) ∧ q.InDisk centre radius := by
  simp only [disk, List.mem_map, List.mem_filter, mem_pointsBetween, decide_eq_true_eq, Point.shift,
    Point.InDisk]
  constructor
  · rintro ⟨o, ⟨⟨column, row⟩, near⟩, rfl⟩
    refine ⟨by dsimp only; omega, ?_⟩
    dsimp only
    nlinarith
  · rintro ⟨⟨column, row⟩, near⟩
    have nonneg : (0 : Int) ≤ radius := Int.natCast_nonneg _
    have x : -(radius : Int) ≤ q.x - centre.x ∧ q.x - centre.x ≤ radius :=
      abs_le_of_sq_le_sq' (by nlinarith) nonneg
    have y : -(radius : Int) ≤ q.y - centre.y ∧ q.y - centre.y ≤ radius :=
      abs_le_of_sq_le_sq' (by nlinarith) nonneg
    refine ⟨⟨q.x - centre.x, q.y - centre.y⟩, ⟨by dsimp only; omega, ?_⟩, ?_⟩
    · dsimp only
      nlinarith
    · dsimp only
      rw [add_sub_cancel, add_sub_cancel]

/-- A disk touches the canvas only from a centre within reach, on both axes. -/
lemma reach_of_mem_disk {size radius : Nat} {centre q : Point} (mem : q ∈ disk size centre radius) :
    (reachFirst radius ≤ centre.x ∧ centre.x ≤ reachLast size radius) ∧
      reachFirst radius ≤ centre.y ∧ centre.y ≤ reachLast size radius := by
  simp only [disk, List.mem_map, List.mem_filter, mem_pointsBetween] at mem
  obtain ⟨o, ⟨⟨column, row⟩, -⟩, -⟩ := mem
  simp only [reachFirst, reachLast]
  omega

namespace Canvas

/-- Canvases of one size and background are equal if all points have the same colors on them. -/
lemma ext_get? {c d : Canvas} (size : c.size = d.size) (background : c.background = d.background)
    (colors : ∀ p, c.get? p = d.get? p) : c = d := by
  obtain ⟨n, b, cells⟩ := c
  obtain ⟨n', b', cells'⟩ := d
  obtain rfl : n = n' := size
  obtain rfl : b = b' := background
  suffices same : cells = cells' by rw [same]
  refine Vector.ext fun i less => ?_
  -- the cell is that of the point in column `i % n` of row `i / n`
  have positive : 0 < n := Nat.pos_of_ne_zero fun zero => by simp [zero] at less
  have column := Nat.mod_lt i positive
  have row : i / n < n := Nat.div_lt_of_lt_mul less
  have there : cellIndex? n ⟨(i % n : Nat), (i / n : Nat)⟩ = some ⟨i, less⟩ := by
    rw [cellIndex?, dif_pos ⟨⟨Int.natCast_nonneg _, Int.ofNat_lt.mpr column⟩,
      Int.natCast_nonneg _, Int.ofNat_lt.mpr row⟩]
    simp only [Int.toNat_natCast, Option.some.injEq, Fin.mk.injEq]
    rw [Nat.mul_comm]
    exact Nat.div_add_mod i n
  have same := colors ⟨(i % n : Nat), (i / n : Nat)⟩
  simp only [get?, there, Option.map_some, Option.some.injEq] at same
  exact same

variable (c : Canvas) (centres : List Point) (radius : Nat) (color : Color)

/-- Stamping keeps the size. -/
@[simp]
lemma size_stampAll : (c.stampAll centres radius color).size = c.size := by
  induction centres generalizing c with
  | nil => rfl
  | cons p centres ih => exact (ih _).trans (c.size_paint _ color)

/-- Stamping keeps the background. -/
@[simp]
lemma background_stampAll : (c.stampAll centres radius color).background = c.background := by
  induction centres generalizing c with
  | nil => rfl
  | cons p centres ih => exact (ih _).trans (c.background_paint _ color)

/-- Stamps give the color to the cells in their disks, and change no other cell. -/
lemma get?_stampAll (q : Point) :
    (c.stampAll centres radius color).get? q =
      if (∃ p ∈ centres, q ∈ disk c.size p radius) ∧ c.contains q then some color
      else c.get? q := by
  induction centres generalizing c with
  | nil => simp [stampAll]
  | cons p centres ih =>
    have step : c.stampAll (p :: centres) radius color =
        (c.stampDisk p radius color).stampAll centres radius color := rfl
    have size : (c.stampDisk p radius color).size = c.size := c.size_paint _ color
    have inside := contains_congr size q
    rw [step, ih, size, inside, stampDisk, get?_paint]
    by_cases on : c.contains q <;> by_cases here : q ∈ disk c.size p radius <;> simp [on, here]

variable {centres}

/-- Series of stamps that reach the same cells paint the same. -/
lemma stampAll_congr {centres' : List Point}
    (same : ∀ q, (∃ p ∈ centres, q ∈ disk c.size p radius) ↔
      ∃ p ∈ centres', q ∈ disk c.size p radius) :
    c.stampAll centres radius color = c.stampAll centres' radius color := by
  refine ext_get? (by simp) (by simp) fun q => ?_
  rw [get?_stampAll, get?_stampAll]
  simp only [same q]

/-- A canvas is another one with the disks around some points painted: all cells in a disk have the
color, and nothing else is changed. -/
structure Stamped (c : Canvas) (centres : Point → Prop) (radius : Nat) (color : Color)
    (c' : Canvas) : Prop where
  size_eq : c'.size = c.size
  background_eq : c'.background = c.background
  painted : ∀ q, c.contains q → (∃ p, centres p ∧ q.InDisk p radius) → c'.get? q = some color
  unchanged : ∀ q, ¬ (c.contains q ∧ ∃ p, centres p ∧ q.InDisk p radius) → c'.get? q = c.get? q

/-- Stamping a list of points stamps these points. -/
lemma stamped_stampAll (c : Canvas) (centres : List Point) (radius : Nat) (color : Color) :
    c.Stamped (· ∈ centres) radius color (c.stampAll centres radius color) := by
  have touched (q : Point) (on : c.contains q) :
      (∃ p ∈ centres, q ∈ disk c.size p radius) ↔ ∃ p ∈ centres, q.InDisk p radius :=
    exists_congr fun p => and_congr_right fun _ =>
      mem_disk.trans (and_iff_right (isSome_cellIndex?.mp on))
  refine ⟨c.size_stampAll _ _ _, c.background_stampAll _ _ _, fun q on near => ?_, fun q off => ?_⟩
  · rw [get?_stampAll, if_pos ⟨(touched q on).mpr near, on⟩]
  · rw [get?_stampAll, if_neg fun both => off ⟨both.2, (touched q both.2).mp both.1⟩]

/-- What is stamped is the same if the points are. -/
lemma Stamped.congr {c c' : Canvas} {centres centres' : Point → Prop} {radius : Nat}
    {color : Color} (stamped : c.Stamped centres radius color c')
    (same : ∀ p, centres p ↔ centres' p) : c.Stamped centres' radius color c' := by
  rwa [← funext fun p => propext (same p)]

end Canvas

end Easel

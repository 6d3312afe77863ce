import Easel.Canvas.Circle
import Easel.Proofs.Stamping
import Mathlib.Tactic.Linarith

/-!
# Circles without windows

The plain way to draw a circle goes through the rows of an eighth of it from zero on, until a row
is greater than its column, and stamps all eight reflections of every point
(`Canvas.drawPlainCircle`). Windows only leave out rows from which no stamp touches the canvas, so
both ways leave the same canvas (`Canvas.drawCircle_eq_plain`).

Of the columns, which are square roots in doubles, it is assumed that they do not grow from row to
row and that none is beyond the radius (`OctantColumns`). The former is what allows a visit to end
early: once a row is greater than its column, so are all later ones.
-/

namespace Easel

/-- The columns of an eighth of a circle are within the radius and do not grow. -/
structure OctantColumns (radius : Nat) : Prop where
  falls : ∀ {y z}, 0 ≤ y → y ≤ z → octantColumn radius z ≤ octantColumn radius y
  within : ∀ {y}, 0 ≤ y → octantColumn radius y ≤ radius

/-- There are no columns in the rows beyond a circle. -/
lemma octantColumn_beyond {radius : Nat} {y : Int} (beyond : radius < y) :
    octantColumn radius y = -1 := by
  have outside : (radius : Int) * radius - y * y < 0 := by nlinarith
  rw [octantColumn, if_pos outside]

namespace Canvas

/-- Draws the rows of a circle from `y` on: every point of an eighth is stamped at its offset from
the centre and at the seven offsets that are symmetric to it, without regard to where the canvas
is. -/
def drawPlainRows (c : Canvas) (centre : Point) (radius : Nat) (color : Color) (brush : Int)
    (y : Int) : Canvas :=
  let x := octantColumn radius y
  if x < y then c
  else
    let offsets := [(x, y), (x, -y), (-x, y), (-x, -y), (y, x), (y, -x), (-y, x), (-y, -x)]
    let stamped := offsets.foldl
      (fun c o => c.stamp ⟨centre.x + o.1, centre.y + o.2⟩ color brush) c
    stamped.drawPlainRows centre radius color brush (y + 1)
termination_by (radius + 1 - y).toNat
decreasing_by
  have ended := @octantColumn_beyond radius y
  omega

/-- Draws a circle by all its rows. -/
def drawPlainCircle (c : Canvas) (centre : Point) (radius : Int) (color : Color) (brush : Int) :
    Canvas :=
  c.drawPlainRows centre radius.natAbs color brush 0

/-- The symmetric offsets lead to the reflections of a point. -/
lemma mem_map_offsets {centre p : Point} {x y : Int} :
    p ∈ [(x, y), (x, -y), (-x, y), (-x, -y), (y, x), (y, -x), (-y, x), (-y, -x)].map
        (fun o => centre.shift o.1 o.2) ↔ p ∈ reflections centre x y := by
  simp only [List.map_cons, List.map_nil, reflections, List.mem_cons, List.not_mem_nil, or_false]
  tauto

/-- The plain way stamps the reflections of those rows that are not greater than their columns. -/
lemma drawPlainRows_eq {radius : Nat} (columns : OctantColumns radius) (c : Canvas)
    (centre : Point) (color : Color) (brush : Int) {first : Int} (low : 0 ≤ first) :
    ∃ centres, c.drawPlainRows centre radius color brush first =
        c.stampAll centres (brushRadius brush) color ∧
      ∀ p, p ∈ centres ↔ ∃ y, first ≤ y ∧ y ≤ octantColumn radius y ∧
        p ∈ reflections centre (octantColumn radius y) y := by
  fun_induction drawPlainRows c centre radius color brush first with
  | case1 c first x ended =>
    refine ⟨[], rfl, fun p => ⟨fun mem => absurd mem List.not_mem_nil, ?_⟩⟩
    rintro ⟨y, le, inside, -⟩
    have := columns.falls low le
    omega
  | case2 c first x goesOn offsets stamped ih =>
    obtain ⟨centres, drawn, mem_centres⟩ := ih (by omega)
    refine ⟨offsets.map (fun o => centre.shift o.1 o.2) ++ centres, ?_, fun p => ?_⟩
    · rw [drawn, stampAll, stampAll, List.foldl_append, List.foldl_map]
      rfl
    · rw [List.mem_append, mem_centres, mem_map_offsets]
      constructor
      · rintro (here | ⟨y, le, inside, later⟩)
        · exact ⟨first, le_refl _, not_lt.mp goesOn, here⟩
        · exact ⟨y, by omega, inside, later⟩
      · rintro ⟨y, le, inside, mem⟩
        by_cases here : y = first
        · subst here
          exact .inl mem
        · exact .inr ⟨y, by omega, inside, mem⟩

end Canvas

namespace Window

/-- The order of windows is transitive. -/
lemma le_trans (u v w : Window) (uv : u.le v) (vw : v.le w) : u.le w := by
  simp only [le, Bool.or_eq_true, Bool.and_eq_true, decide_eq_true_eq, beq_iff_eq] at *
  omega

/-- Of two windows, one comes before the other. -/
lemma le_total (v w : Window) : v.le w || w.le v := by
  simp only [le, Bool.or_eq_true, Bool.and_eq_true, decide_eq_true_eq, beq_iff_eq]
  omega

variable {centre : Point} {first last : Int}

/-- The windows around a centre are sorted by their first rows. -/
lemma pairwise_around : (around centre first last).Pairwise fun v w => v.first ≤ w.first := by
  refine (List.pairwise_mergeSort le_trans le_total _).imp fun {v w} before => ?_
  simp only [le, Bool.or_eq_true, Bool.and_eq_true, decide_eq_true_eq, beq_iff_eq] at before
  omega

/-- The windows around a centre begin at no negative row. -/
lemma around_nonneg : ∀ w ∈ around centre first last, 0 ≤ w.first := by
  intro w mem
  simp only [around, List.mem_mergeSort, List.mem_filter, List.mem_map] at mem
  obtain ⟨⟨v, -, rfl⟩, -⟩ := mem
  exact le_max_right _ _

/-- A row is in one of the windows if, at its offset from the centre on either axis and to either
side, the coordinate is in range. -/
lemma exists_around {y : Int} (low : 0 ≤ y)
    (inRange : (first ≤ centre.x + y ∧ centre.x + y ≤ last ∨
        first ≤ centre.x - y ∧ centre.x - y ≤ last) ∨
      first ≤ centre.y + y ∧ centre.y + y ≤ last ∨
        first ≤ centre.y - y ∧ centre.y - y ≤ last) :
    ∃ w ∈ around centre first last, w.first ≤ y ∧ y ≤ w.last := by
  suffices there : ∃ v ∈ [(⟨first - centre.x, last - centre.x⟩ : Window),
      ⟨centre.x - last, centre.x - first⟩, ⟨first - centre.y, last - centre.y⟩,
      ⟨centre.y - last, centre.y - first⟩], v.first ≤ y ∧ y ≤ v.last by
    obtain ⟨v, mem, le, ge⟩ := there
    refine ⟨⟨max v.first 0, v.last⟩, ?_, max_le le low, ge⟩
    simp only [around, List.mem_mergeSort, List.mem_filter, List.mem_map, decide_eq_true_eq]
    exact ⟨⟨v, mem, rfl⟩, (max_le le low).trans ge⟩
  simp only [List.mem_cons, List.not_mem_nil, or_false, exists_eq_or_imp, exists_eq_left]
  omega

end Window

section Rows

variable {column : Int → Int}

/-- Rows that were visited stay visited. -/
lemma visited_octantRowsFrom {n : Nat} {first : Int} {visited : List Int} :
    visited ⊆ (octantRowsFrom column n first visited).1 := by
  induction n generalizing first visited with
  | zero => exact List.Subset.refl _
  | succ n ih =>
    rw [octantRowsFrom]
    split
    · exact List.Subset.refl _
    · exact List.Subset.trans (List.subset_cons_self _ _) ih

variable (falls : ∀ {y z}, 0 ≤ y → y ≤ z → column z ≤ column y)
include falls

/-- A visit misses none of its rows, and no later ones either if the eighth ends in it. -/
lemma mem_octantRowsFrom {n : Nat} {first y : Int} {visited : List Int} (low : 0 ≤ first)
    (le : first ≤ y) (inside : y ≤ column y)
    (reached : y < first + n ∨ (octantRowsFrom column n first visited).2 = true) :
    y ∈ (octantRowsFrom column n first visited).1 := by
  induction n generalizing first visited with
  | zero =>
    rcases reached with less | ended
    · omega
    · exact absurd ended Bool.false_ne_true
  | succ n ih =>
    rw [octantRowsFrom] at reached ⊢
    split at reached
    · next ended =>
      have := falls low le
      omega
    · next goesOn =>
      rw [if_neg goesOn]
      by_cases here : y = first
      · subst here
        exact visited_octantRowsFrom List.mem_cons_self
      · refine ih (by omega) (by omega) (reached.imp_left fun less => ?_)
        omega

/-- A visit to a window leaves nothing of it, and nothing up to its end of any window that begins
later, if the rows before `next` are done. -/
lemma mem_visit {w : Window} {next y : Int} {visited : List Int} (low : 0 ≤ next)
    (begins : w.first ≤ y) (inside : y ≤ column y) (done : y < next → y ∈ visited)
    (reached : y ≤ w.last ∨ y < next ∨ (octantRowsFrom column
      (w.last + 1 - max w.first next).toNat (max w.first next) visited).2 = true) :
    y ∈ (octantRowsFrom column (w.last + 1 - max w.first next).toNat
      (max w.first next) visited).1 := by
  by_cases below : y < next
  · exact visited_octantRowsFrom (done below)
  · apply mem_octantRowsFrom falls (by omega) (by omega) inside
    rcases reached with upTo | less | ended
    · exact .inl (by omega)
    · exact absurd less below
    · exact .inr ended

/-- All rows in the windows are visited that are not greater than their columns. The windows are
in order, and of what lies below `next` nothing is left to visit. -/
lemma mem_octantRows {windows : List Window} {next y : Int} {visited : List Int} (low : 0 ≤ next)
    (sorted : windows.Pairwise fun v w => v.first ≤ w.first)
    (done : ∀ w ∈ windows, ∀ z, w.first ≤ z → z < next → z ≤ column z → z ∈ visited)
    (inside : y ≤ column y)
    (there : y ∈ visited ∨ ∃ w ∈ windows, w.first ≤ y ∧ y ≤ w.last) :
    y ∈ octantRows column windows next visited := by
  induction windows generalizing next visited with
  | nil =>
    rcases there with mem | ⟨w, mem, -⟩
    · exact List.mem_reverse.mpr mem
    · exact absurd mem List.not_mem_nil
  | cons w windows ih =>
    rw [List.pairwise_cons] at sorted
    have begins : ∀ v ∈ w :: windows, w.first ≤ v.first :=
      List.forall_mem_cons.mpr ⟨le_refl _, sorted.1⟩
    have visit := fun v mem z le inside =>
      mem_visit falls (w := w) low ((begins v mem).trans le) inside (done v mem z le · inside)
    have before : visited ⊆ (octantRowsFrom column (w.last + 1 - max w.first next).toNat
        (max w.first next) visited).1 := visited_octantRowsFrom
    rw [octantRows]
    -- the walk through the window goes to its end, or breaks off past the diagonal
    rcases rows : octantRowsFrom column (w.last + 1 - max w.first next).toNat
      (max w.first next) visited with ⟨visited', _ | _⟩
    · rw [rows] at before
      simp only [rows] at visit
      refine ih (by omega) sorted.2 (fun v mem z le less inside => ?_) ?_
      · exact visit v (List.mem_cons_of_mem _ mem) z le inside (by omega)
      · rcases there with mem | ⟨v, mem, le, ge⟩
        · exact .inl (before mem)
        · rcases List.mem_cons.mp mem with rfl | later
          · exact .inl (visit v mem y le inside (.inl ge))
          · exact .inr ⟨v, later, le, ge⟩
    · rw [rows] at before
      simp only [rows] at visit
      apply List.mem_reverse.mpr
      rcases there with mem | ⟨v, mem, le, -⟩
      · exact before mem
      · exact visit v mem y le inside (.inr (.inr trivial))

end Rows

/-- A reflection is at the offset `y` from the centre on one axis, and on none of them farther than
the radius. -/
lemma reflections_offsets {centre p : Point} {x y radius : Int} (low : 0 ≤ y) (inside : y ≤ x)
    (within : x ≤ radius) (mem : p ∈ reflections centre x y) :
    ((p.x = centre.x + y ∨ p.x = centre.x - y) ∨ p.y = centre.y + y ∨ p.y = centre.y - y) ∧
      (centre.x - radius ≤ p.x ∧ p.x ≤ centre.x + radius) ∧
      centre.y - radius ≤ p.y ∧ p.y ≤ centre.y + radius := by
  simp only [reflections, Point.shift, List.mem_cons, List.not_mem_nil, or_false] at mem
  rcases mem with rfl | rfl | rfl | rfl | rfl | rfl | rfl | rfl <;> dsimp only <;> omega

variable {column : Int → Int → Int} {size radius brush : Nat} {centre p : Point}

/-- The windows leave out only points from which no stamp touches the canvas. -/
lemma mem_circleCentres_of_falls
    (falls : ∀ {y z}, 0 ≤ y → y ≤ z → column radius z ≤ column radius y)
    (within : ∀ {y}, 0 ≤ y → column radius y ≤ radius) {y : Int} (low : 0 ≤ y)
    (inside : y ≤ column radius y) (mem : p ∈ reflections centre (column radius y) y)
    {q : Point} (touched : q ∈ disk size p brush) :
    p ∈ circleCentres column size centre radius brush := by
  obtain ⟨offset, spread⟩ := reflections_offsets low inside (within low) mem
  have reach := reach_of_mem_disk touched
  have near : circleInReach size centre radius brush := by
    simp only [reachFirst, reachLast] at reach
    simp only [circleInReach, Bool.and_eq_true, decide_eq_true_eq]
    omega
  rw [circleCentres, if_pos near]
  refine List.mem_flatMap.mpr ⟨y, ?_, mem⟩
  apply mem_octantRows falls (le_refl _) Window.pairwise_around
  · intro w window z le less
    have := Window.around_nonneg w window
    omega
  · exact inside
  · right
    apply Window.exists_around low
    omega

/-- A point of the circle that is within reach is stamped. -/
lemma mem_circleCentres (columns : OctantColumns radius) {y : Int} (low : 0 ≤ y)
    (inside : y ≤ octantColumn radius y)
    (mem : p ∈ reflections centre (octantColumn radius y) y)
    {q : Point} (touched : q ∈ disk size p brush) :
    p ∈ circleCentres octantColumn size centre radius brush :=
  mem_circleCentres_of_falls columns.falls columns.within low inside mem touched

/-- The windows let only rows through that are not greater than their columns. -/
lemma exists_of_mem_circleCentres (mem : p ∈ circleCentres column size centre radius brush) :
    ∃ y, 0 ≤ y ∧ y ≤ column radius y ∧ p ∈ reflections centre (column radius y) y := by
  rw [circleCentres] at mem
  split at mem
  · obtain ⟨y, row, mem⟩ := List.mem_flatMap.mp mem
    obtain ⟨low, inside⟩ := le_octantRows (le_refl _) (List.forall_mem_nil _) y row
    exact ⟨y, low, inside, mem⟩
  · exact absurd mem List.not_mem_nil

/-- A circle drawn by windows is the circle drawn by all its rows. -/
theorem Canvas.drawCircle_eq_plain (c : Canvas) (centre : Point) (radius : Int) (color : Color)
    (brush : Int) (columns : OctantColumns radius.natAbs) :
    c.drawCircle centre radius color brush = c.drawPlainCircle centre radius color brush := by
  obtain ⟨centres, drawn, mem_centres⟩ :=
    drawPlainRows_eq columns c centre color brush (le_refl 0)
  rw [drawPlainCircle, drawn, drawCircle, drawCircleWith]
  apply stampAll_congr
  intro q
  constructor
  · rintro ⟨p, mem, touched⟩
    exact ⟨p, (mem_centres p).mpr (exists_of_mem_circleCentres mem), touched⟩
  · rintro ⟨p, mem, touched⟩
    obtain ⟨y, low, inside, reflected⟩ := (mem_centres p).mp mem
    exact ⟨p, mem_circleCentres columns low inside reflected touched, touched⟩

/-- A circle around a cell to the left of the canvas, of which the rightmost point is on it. -/
theorem Canvas.drawCircle_eq_plain_outside :
    OctantColumns (-3 : Int).natAbs ∧
      (blank 4 .white).drawCircle ⟨-2, 1⟩ (-3) .red 2 =
        (blank 4 .white).drawPlainCircle ⟨-2, 1⟩ (-3) .red 2 ∧
      ((blank 4 .white).drawCircle ⟨-2, 1⟩ (-3) .red 2).get? ⟨1, 1⟩ = some .red := by
  have columns : OctantColumns (-3 : Int).natAbs := by
    have rows : ∀ y : Int, 0 ≤ y → octantColumn 3 y =
        if y ≤ 1 then 3 else if y = 2 then 2 else if y = 3 then 0 else -1 := by
      intro y low
      have cases : y = 0 ∨ y = 1 ∨ y = 2 ∨ y = 3 ∨ 3 < y := by omega
      rcases cases with rfl | rfl | rfl | rfl | beyond
      · decide +kernel
      · decide +kernel
      · decide +kernel
      · decide +kernel
      · rw [show octantColumn 3 y = -1 from @octantColumn_beyond 3 y beyond]
        split_ifs <;> omega
    refine ⟨fun {y z} low le => ?_, fun {y} low => ?_⟩
    · rw [show ((-3 : Int).natAbs : Int) = 3 from rfl, rows y low, rows z (low.trans le)]
      split_ifs <;> omega
    · rw [show ((-3 : Int).natAbs : Int) = 3 from rfl, rows y low]
      split_ifs <;> omega
  refine ⟨columns, drawCircle_eq_plain _ _ _ _ _ columns, ?_⟩
  have stamped : ⟨1, 1⟩ ∈ circleCentres octantColumn 4 ⟨-2, 1⟩ (-3 : Int).natAbs (brushRadius 2) :=
    mem_circleCentres columns (le_refl 0) (by decide +kernel) (by decide +kernel)
      (show ⟨1, 1⟩ ∈ disk 4 ⟨1, 1⟩ (brushRadius 2) by decide)
  rw [drawCircle, drawCircleWith, get?_stampAll, if_pos ⟨⟨_, stamped, by decide⟩, by decide⟩]

end Easel

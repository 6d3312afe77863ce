import Easel.Proofs.Painting

/-!
# What filling paints

Filling paints the cells that can be reached from the seed through cells of the seed's color
(`Canvas.Connected`), and no other. While it goes on, the canvas that is tested is the canvas that
is painted, so what is kept is a relation to the canvas as it was at first (`Canvas.PartlyFilled`):
every painted cell is connected to the seed, and from a painted cell there is a step only to painted
cells and to cells that are still on the stack. When the stack is empty, all connected cells are
painted (`Canvas.floodFill_region`).

A cell is painted at most once, and four points are put on the stack when it is. This gives the
number of turns after which the stack is empty (`Canvas.fillFrom_filling`).
-/

namespace Easel

/-- The points are next to each other, in a row or in a column. -/
def Point.Beside (p q : Point) : Prop := (q.x - p.x).natAbs + (q.y - p.y).natAbs = 1

/-- A point has four neighbours. -/
lemma Point.beside_iff {p q : Point} :
    p.Beside q ↔
      q ∈ [p.shift 0 (-1), p.shift 0 1, p.shift (-1) 0, p.shift 1 0] := by
  obtain ⟨x, y⟩ := p
  obtain ⟨x', y'⟩ := q
  simp only [Beside, shift, List.mem_cons, List.not_mem_nil, Point.mk.injEq, or_false]
  omega

namespace Canvas

/-- The point can be reached from the seed by steps to neighbours, and all points on the way, both
ends included, have the color `target`. -/
inductive Connected (c : Canvas) (target : Color) (seed : Point) : Point → Prop where
  | seed :
    c.get? seed = some target →
    Connected c target seed seed
  | step {p q} :
    Connected c target seed p →
    p.Beside q →
    c.get? q = some target →
    Connected c target seed q

variable {c c' : Canvas} {target color : Color} {seed p : Point} {stack : List Point}

/-- All that is connected has the color that is filled over. -/
lemma Connected.get?_eq (connected : Connected c target seed p) : c.get? p = some target := by
  cases connected with
  | seed here => exact here
  | step _ _ here => exact here

/-- The canvas `c'` is what became of the canvas `c` while it is filled, with the points of the
stack still to be looked at. -/
structure PartlyFilled (c : Canvas) (target color : Color) (seed : Point) (c' : Canvas)
    (stack : List Point) : Prop where
  /-- A cell is as it was, or it is connected to the seed and painted. -/
  cells : ∀ p, c'.get? p = c.get? p ∨ Connected c target seed p ∧ c'.get? p = some color
  /-- What is on the stack is connected to the seed, unless it has another color. -/
  waiting : ∀ p ∈ stack, c.get? p = some target → Connected c target seed p
  /-- The seed, and what is next to a painted cell, is painted or on the stack, unless it has
  another color. -/
  frontier : ∀ q, c.get? q = some target →
    (q = seed ∨ ∃ p, Connected c target seed p ∧ c'.get? p = some color ∧ p.Beside q) →
    c'.get? q = some color ∨ q ∈ stack

namespace PartlyFilled

/-- In the beginning, nothing is filled, and the first point waits. -/
lemma start (here : c.get? seed = some target) (distinct : color ≠ target) :
    PartlyFilled c target color seed c [seed] where
  cells p := .inl rfl
  waiting p mem _ := by
    rw [List.mem_singleton.mp mem]
    exact .seed here
  frontier q _ next := by
    rcases next with rfl | ⟨p, connected, painted, -⟩
    · exact .inr List.mem_cons_self
    · -- nothing is painted yet
      rw [connected.get?_eq] at painted
      cases painted
      exact absurd rfl distinct

/-- A cell that still has the first color of the seed had it from the start. -/
lemma get?_eq (partly : PartlyFilled c target color seed c' stack) (distinct : color ≠ target)
    (here : c'.get? p = some target) : c.get? p = some target := by
  rcases partly.cells p with same | ⟨-, painted⟩
  · rwa [same] at here
  · rw [here] at painted
    cases painted
    exact absurd rfl distinct

/-- Painting the first point of the stack. -/
lemma paint (partly : PartlyFilled c target color seed c' (p :: stack)) (distinct : color ≠ target)
    (here : c'.get? p = some target) :
    PartlyFilled c target color seed (c'.set p color)
      (p.shift 0 (-1) :: p.shift 0 1 :: p.shift (-1) 0 :: p.shift 1 0 :: stack) := by
  have connected : Connected c target seed p :=
    partly.waiting p List.mem_cons_self (partly.get?_eq distinct here)
  have inside : c'.contains p := by
    have colored : (c'.get? p).isSome := by rw [here]; rfl
    rw [get?, Option.isSome_map] at colored
    exact colored
  have after (q : Point) :
      (c'.set p color).get? q = if q = p then some color else c'.get? q := by
    rw [get?_set]
    simp [inside]
  -- one case for each part of what is known while filling goes on
  constructor
  case cells =>
    intro q
    rw [after]
    split
    · next same => exact .inr ⟨same ▸ connected, rfl⟩
    · exact partly.cells q
  case waiting =>
    intro q mem had
    have split : q ∈ [p.shift 0 (-1), p.shift 0 1, p.shift (-1) 0, p.shift 1 0] ∨ q ∈ stack :=
      List.mem_append.mp mem
    rcases split with next | mem
    · exact .step connected (Point.beside_iff.mpr next) had
    · exact partly.waiting q (List.mem_cons_of_mem p mem) had
  case frontier =>
    intro r had next
    have before : r = p ∨ p.Beside r ∨ c'.get? r = some color ∨ r ∈ p :: stack := by
      rcases next with origin | ⟨q, reached, painted, next⟩
      · exact .inr (.inr (partly.frontier r had (.inl origin)))
      · rw [after] at painted
        split at painted
        · next same => exact .inr (.inl (same ▸ next))
        · exact .inr (.inr (partly.frontier r had (.inr ⟨q, reached, painted, next⟩)))
    rw [after]
    split
    · exact .inl rfl
    · next other =>
      rcases before with same | next | painted | mem
      · exact absurd same other
      · -- the neighbours of the point that is painted now are put on the stack
        exact .inr (List.mem_append_left stack (Point.beside_iff.mp next))
      · exact .inl painted
      · exact .inr (by simp [(List.mem_cons.mp mem).resolve_left other])

/-- Passing over the first point of the stack. -/
lemma skip (partly : PartlyFilled c target color seed c' (p :: stack))
    (elsewhere : c'.get? p ≠ some target) : PartlyFilled c target color seed c' stack := by
  constructor
  case cells => exact partly.cells
  case waiting => exact fun q mem => partly.waiting q (List.mem_cons_of_mem p mem)
  case frontier =>
    intro q had next
    rcases partly.frontier q had next with painted | mem
    · exact .inl painted
    · rcases List.mem_cons.mp mem with rfl | mem
      · rcases partly.cells q with same | ⟨-, painted⟩
        · exact absurd (same.trans had) elsewhere
        · exact .inl painted
      · exact .inr mem

/-- When nothing is on the stack, all that is connected to the seed is painted. -/
lemma finish (partly : PartlyFilled c target color seed c' []) :
    ∀ {p}, Connected c target seed p → c'.get? p = some color := by
  intro p connected
  induction connected with
  | seed here => exact (partly.frontier seed here (.inl rfl)).resolve_right List.not_mem_nil
  | step reached next here painted =>
    exact (partly.frontier _ here (.inr ⟨_, reached, painted, next⟩)).resolve_right
      List.not_mem_nil

end PartlyFilled

/-- Filling from a stack fills what is left to be filled. -/
lemma partlyFilled_fillFrom (distinct : color ≠ target) (c' : Canvas) (stack : List Point)
    (partly : PartlyFilled c target color seed c' stack) :
    PartlyFilled c target color seed (fillFrom distinct c' stack) [] := by
  fun_induction fillFrom distinct c' stack with
  | case1 c' => exact partly
  | case2 c' p stack here _ ih => exact ih (partly.paint distinct here)
  | case3 c' p stack elsewhere ih => exact ih (partly.skip elsewhere)

/-- From the canvas `c` and a stack, filling leads to the canvas `c'` in the given number of turns.
Each turn takes the first point of the stack. -/
inductive Filling (target color : Color) : Nat → Canvas → List Point → Canvas → Prop where
  | done {c : Canvas} :
    Filling target color 0 c [] c
  | paint {n : Nat} {c : Canvas} {p : Point} {stack : List Point} {c' : Canvas} :
    c.get? p = some target →
    Filling target color n (c.set p color)
      (p.shift 0 (-1) :: p.shift 0 1 :: p.shift (-1) 0 :: p.shift 1 0 :: stack) c' →
    Filling target color (n + 1) c (p :: stack) c'
  | skip {n : Nat} {c : Canvas} {p : Point} {stack : List Point} {c' : Canvas} :
    c.get? p ≠ some target →
    Filling target color n c stack c' →
    Filling target color (n + 1) c (p :: stack) c'

/-- Filling ends. A turn takes one point from the stack and, if it paints it, puts four on it. -/
lemma fillFrom_filling (distinct : color ≠ target) (c : Canvas) (stack : List Point) :
    ∃ turns, Filling target color turns c stack (fillFrom distinct c stack) ∧
      turns + 4 * (fillFrom distinct c stack).cells.count target =
        stack.length + 4 * c.cells.count target := by
  fun_induction fillFrom distinct c stack with
  | case1 c => exact ⟨0, .done, rfl⟩
  | case2 c p stack here _ ih =>
    obtain ⟨turns, filling, count⟩ := ih
    have one := count_set_succ distinct here
    refine ⟨turns + 1, .paint here filling, ?_⟩
    simp only [List.length_cons] at count ⊢
    omega
  | case3 c p stack elsewhere ih =>
    obtain ⟨turns, filling, count⟩ := ih
    refine ⟨turns + 1, .skip elsewhere filling, ?_⟩
    simp only [List.length_cons]
    omega

/-- Filling paints the region of the seed. If the seed is off the canvas or has the color already,
nothing changes. Otherwise a cell is changed, and has the color then, exactly if it is connected to
the seed through cells of the seed's first color; all other cells keep theirs. The stack is empty
after one turn for the seed and four for each cell that was painted. -/
theorem floodFill_region (c : Canvas) (seed : Point) (color : Color) :
    let filled := c.floodFill seed color
    filled.size = c.size ∧ filled.background = c.background ∧
    (c.get? seed = none ∨ c.get? seed = some color → filled = c) ∧
    ∀ target, c.get? seed = some target → target ≠ color →
      (∀ p, filled.get? p = some color ∧ filled.get? p ≠ c.get? p ↔ Connected c target seed p) ∧
      (∀ p, ¬ Connected c target seed p → filled.get? p = c.get? p) ∧
      ∃ turns, Filling target color turns c [seed] filled ∧
        turns + 4 * filled.cells.count target = 1 + 4 * c.cells.count target := by
  intro filled
  have painted : Painted c filled := c.painted_floodFill seed color
  refine ⟨painted.size_eq, painted.background_eq, ?_, ?_⟩
  · intro idle
    rcases idle with off | same
    · simp only [filled, floodFill, off]
    · simp only [filled, floodFill, same, dite_true]
  · intro target here other
    have distinct : color ≠ target := other.symm
    have shape : filled = fillFrom distinct c [seed] := by
      simp only [filled, floodFill, here, dif_neg distinct]
    -- filling ends with an empty stack, so what is partly filled is filled
    have partly : PartlyFilled c target color seed filled [] := by
      rw [shape]
      exact partlyFilled_fillFrom distinct c [seed] (.start here distinct)
    refine ⟨fun p => ⟨fun repainted => ?_, fun connected => ?_⟩, fun p apart => ?_, ?_⟩
    · rcases partly.cells p with same | ⟨connected, -⟩
      · exact absurd same repainted.2
      · exact connected
    · rw [connected.get?_eq, partly.finish connected]
      exact ⟨rfl, fun same => distinct (Option.some.inj same)⟩
    · rcases partly.cells p with same | ⟨connected, -⟩
      · exact same
      · exact absurd connected apart
    · rw [shape]
      exact fillFrom_filling distinct c [seed]

end Canvas

end Easel

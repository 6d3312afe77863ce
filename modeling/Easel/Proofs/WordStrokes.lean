import Easel.Proofs.CheckedStrokes

/-!
# Strokes that fit into machine words

Whether a stroke can be computed in machine words does not depend on what is painted on the canvas,
nor on the color: on canvases of one size, a stroke has no result on any of them, or it has the
right one on all of them. Computations with this property are `Alike`. They can be composed
(`Alike.bind`) and repeated (`Alike.foldlM`), so that it holds of each routine because it holds of
those that it calls. Nothing is assumed about coordinates, brushes or doubles here.
-/

namespace Easel.Checked

/-- Computations, one for each index, have no result at all, or all of them have the given one. -/
def Alike {ι α : Type} (o : ι → Option α) (a : ι → α) : Prop :=
  (∀ i, o i = none) ∨ ∀ i, o i = some (a i)

namespace Alike

variable {ι α β σ : Type} {o : ι → Option α} {a : ι → α}

/-- The results may be given in another form. -/
lemma congr {b : ι → α} (alike : Alike o a) (same : ∀ i, a i = b i) : Alike o b := by
  rwa [← funext same]

/-- What is not computed has a result. -/
lemma pure (a : ι → α) : Alike (fun i => Pure.pure (a i)) a := .inr fun _ => rfl

/-- An operation on words has the same fate everywhere. -/
lemma word (n : Int) : Alike (fun _ : ι => Checked.word n) fun _ => n := by
  by_cases fits : IsWord n
  · exact .inr fun _ => if_pos fits
  · exact .inl fun _ => if_neg fits

/-- So has an operation on 128 bits. -/
lemma wide (n : Int) : Alike (fun _ : ι => Checked.wide n) fun _ => n := by
  by_cases fits : -2 ^ 127 ≤ n ∧ n < 2 ^ 127
  · exact .inr fun _ => if_pos fits
  · exact .inl fun _ => if_neg fits

/-- One computation after another. -/
lemma bind {f : ι → α → Option β} {b : ι → β} (first : Alike o a)
    (next : Alike (fun i => f i (a i)) b) : Alike (fun i => o i >>= f i) b := by
  rcases first with missing | all
  · exact .inl fun i => congrArg (· >>= f i) (missing i)
  · exact next.imp (fun missing i => (congrArg (· >>= f i) (all i)).trans (missing i))
      fun all' i => (congrArg (· >>= f i) (all i)).trans (all' i)

/-- Computations that go through a list with a state, as long as a property of the state is kept. -/
lemma foldlM {P : σ → Prop} {f : ι → σ → α → Option σ} {g : ι → σ → α → σ} {as : List α}
    (keeps : ∀ i s a, P s → P (g i s a))
    (step : ∀ s : ι → σ, (∀ i, P (s i)) → ∀ a ∈ as,
      Alike (fun i => f i (s i) a) fun i => g i (s i) a) :
    ∀ {s : ι → σ}, (∀ i, P (s i)) →
      Alike (fun i => as.foldlM (f i) (s i)) fun i => as.foldl (g i) (s i) := by
  induction as with
  | nil => exact fun _ => pure _
  | cons a as ih =>
    intro s holds
    refine bind (step s holds a List.mem_cons_self) ?_
    exact ih (fun s holds b mem => step s holds b (List.mem_cons_of_mem a mem)) fun i =>
      keeps i (s i) a (holds i)

/-- Computations for all elements of a list. -/
lemma mapM {f : ι → α → Option β} {g : ι → α → β} {as : List α}
    (step : ∀ a ∈ as, Alike (fun i => f i a) fun i => g i a) :
    Alike (fun i => as.mapM (f i)) fun i => as.map (g i) := by
  induction as with
  | nil => exact pure _
  | cons a as ih =>
    simp only [List.mapM_cons]
    exact bind (step a List.mem_cons_self)
      (bind (ih fun b mem => step b (List.mem_cons_of_mem a mem)) (pure _))

end Alike

section Stamps

variable {ι : Type} {c : ι → Canvas} {color : ι → Color} {size radius : Nat} {centre : Point}

variable (same : ∀ i, (c i).size = size)
include same

end Stamps

section Lines

open Segment

variable {ι : Type} (s : Segment)

variable {c : ι → Canvas} {color : ι → Color} {size : Nat} (same : ∀ i, (c i).size = size)
include same

end Lines

section Circles

variable {ι : Type} (centre : Point) (radius : Int)

end Circles

end Easel.Checked

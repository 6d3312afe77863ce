import Mathlib.Tactic.Lemma

/-!
# Outcomes

Work that may fail has an outcome: what it yields, or a fault. Of work in several parts, the first
part that fails gives the fault. So what all faults of the parts have in common, the faults of the
whole have, too (`FailsBy.bind`).
-/

namespace Easel

variable {ε δ α β : Type}

/-- Work that may fail succeeds exactly if its first part does and then the rest. -/
lemma bind_eq_ok {x : Except ε α} {f : α → Except ε β} {b : β} :
    x >>= f = .ok b ↔ ∃ a, x = .ok a ∧ f a = .ok b := by
  cases x with
  | error e => exact ⟨nofun, nofun⟩
  | ok a => exact ⟨fun h => ⟨a, rfl, h⟩, fun ⟨_, e, h⟩ => by cases e; exact h⟩

/-- After a success, the rest is what counts. -/
lemma ok_bind (a : α) (f : α → Except ε β) : (.ok a : Except ε α) >>= f = f a := rfl

/-- Work on a state is not gone on with after a part that fails. -/
lemma run_bind {σ : Type} (x : ExceptT ε (StateM σ) α) (f : α → ExceptT ε (StateM σ) β) (s : σ) :
    (x >>= f).run s = match x.run s with
      | (.ok a, s) => (f a).run s
      | (.error e, s) => (.error e, s) := by
  change (match x.run s with | (outcome, s) => (ExceptT.bindCont f outcome) s) = _
  rcases x.run s with ⟨e | a, s'⟩ <;> rfl

/-- If the work fails, its fault is of the given kind. -/
def FailsBy (kind : ε → Prop) (x : Except ε α) : Prop :=
  ∀ e, x = .error e → kind e

namespace FailsBy

variable {kind : ε → Prop}

/-- A success does not fail. -/
lemma ok (a : α) : FailsBy kind (.ok a) := nofun

/-- A fault of a kind is of that kind. -/
lemma error {e : ε} (known : kind e) : FailsBy kind (.error e : Except ε α) := by
  intro e' same
  cases same
  exact known

/-- Work in two parts fails by faults of a kind if both parts do. -/
lemma bind {x : Except ε α} {f : α → Except ε β} (hx : FailsBy kind x)
    (hf : ∀ a, FailsBy kind (f a)) : FailsBy kind (x >>= f) := by
  cases x with
  | error e => exact error (hx e rfl)
  | ok a => exact hf a

/-- Faults that become ones of a kind are ones of that kind. -/
lemma mapError {x : Except δ α} {f : δ → ε} (hx : FailsBy (fun e => kind (f e)) x) :
    FailsBy kind (x.mapError f) := by
  cases x with
  | error e => exact error (hx e rfl)
  | ok a => exact ok a

end FailsBy

end Easel

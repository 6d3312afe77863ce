import Easel.Proofs.CallChecks
import Easel.Proofs.Evaluation

/-!
# Evaluation is strict and from left to right

Since expressions have no effects, every part of an expression has the outcome that it has alone, at
any time. The parts are evaluated in a fixed order (`Expr.evaluationOrder`): operands and arguments
from left to right, each before the node that it belongs to. Only a call without a value comes
before its arguments, which are never looked at.

An expression has a value exactly if all of its parts have, and otherwise fails as the first of them
does that fails (`Machine.eval_strict`).
-/

namespace Easel

namespace Expr

/-- An expression is part of another, at any depth, or the same. -/
inductive PartOf : Expr → Expr → Prop where
  | whole {e} :
    PartOf e e
  | left {e left op right position} :
    PartOf e left →
    PartOf e (.binary left op right position)
  | right {e left op right position} :
    PartOf e right →
    PartOf e (.binary left op right position)
  | argument {e a instruction arguments position} :
    a ∈ arguments →
    PartOf e a →
    PartOf e (.call instruction arguments position)

mutual

/-- All parts of an expression, in the order in which they are evaluated. -/
def evaluationOrder : Expr → List Expr
  | .number n p => [.number n p]
  | .text s p => [.text s p]
  | .var name p => [.var name p]
  | .binary left op right p =>
    left.evaluationOrder ++ (right.evaluationOrder ++ [.binary left op right p])
  | .call instruction arguments p =>
    if instruction.yieldsValue then
      evaluationOrderOfList arguments ++ [.call instruction arguments p]
    else .call instruction arguments p :: evaluationOrderOfList arguments

/-- All parts of some expressions, in the order in which they are evaluated. -/
def evaluationOrderOfList : List Expr → List Expr
  | [] => []
  | e :: rest => e.evaluationOrder ++ evaluationOrderOfList rest

end

/-- What is evaluated in a call is the call itself and what is evaluated in its arguments. -/
lemma mem_evaluationOrder_call {e : Expr} {instruction : Instruction} {arguments : List Expr}
    {p : Position} :
    e ∈ (call instruction arguments p).evaluationOrder ↔
      e = .call instruction arguments p ∨ e ∈ evaluationOrderOfList arguments := by
  rw [evaluationOrder]
  split <;> simp [or_comm]

/-- The parts of an argument are evaluated. -/
lemma mem_evaluationOrderOfList {e a : Expr} {arguments : List Expr} (mem : a ∈ arguments)
    (inside : e ∈ a.evaluationOrder) : e ∈ evaluationOrderOfList arguments := by
  induction arguments with
  | nil => cases mem
  | cons b rest ih =>
    rw [evaluationOrderOfList, List.mem_append]
    rcases List.mem_cons.mp mem with rfl | later
    · exact .inl inside
    · exact .inr (ih later)

/-- An expression is a part of itself. -/
lemma self_mem_evaluationOrder (e : Expr) : e ∈ e.evaluationOrder := by
  cases e with
  | call instruction arguments p => exact mem_evaluationOrder_call.mpr (.inl rfl)
  | _ => simp [evaluationOrder]

/-- The order of evaluation leaves no part out. -/
lemma PartOf.mem {part e : Expr} (within : PartOf part e) : part ∈ e.evaluationOrder := by
  induction within with
  | whole => exact self_mem_evaluationOrder _
  | left _ ih =>
    rw [evaluationOrder]
    exact List.mem_append_left _ ih
  | right _ ih =>
    rw [evaluationOrder]
    exact List.mem_append_right _ (List.mem_append_left _ ih)
  | argument mem _ ih =>
    exact mem_evaluationOrder_call.mpr (.inr (mem_evaluationOrderOfList mem ih))

mutual

/-- What is evaluated is a part of the expression. -/
lemma partOf_of_mem {part : Expr} : ∀ {e : Expr}, part ∈ e.evaluationOrder → PartOf part e
  | .number n p, mem => by
    rw [evaluationOrder, List.mem_singleton] at mem
    exact mem ▸ .whole
  | .text s p, mem => by
    rw [evaluationOrder, List.mem_singleton] at mem
    exact mem ▸ .whole
  | .var name p, mem => by
    rw [evaluationOrder, List.mem_singleton] at mem
    exact mem ▸ .whole
  | .binary left op right p, mem => by
    rw [evaluationOrder, List.mem_append, List.mem_append, List.mem_singleton] at mem
    rcases mem with inLeft | inRight | rfl
    · exact .left (partOf_of_mem inLeft)
    · exact .right (partOf_of_mem inRight)
    · exact .whole
  | .call instruction arguments p, mem => by
    rcases mem_evaluationOrder_call.mp mem with rfl | inside
    · exact .whole
    · obtain ⟨a, argument, within⟩ := partOf_of_memList inside
      exact .argument argument within

/-- What is evaluated in arguments is a part of one of them. -/
lemma partOf_of_memList {part : Expr} :
    ∀ {es : List Expr}, part ∈ evaluationOrderOfList es → ∃ a ∈ es, PartOf part a
  | [], mem => by
    rw [evaluationOrderOfList] at mem
    cases mem
  | e :: rest, mem => by
    rw [evaluationOrderOfList, List.mem_append] at mem
    rcases mem with here | later
    · exact ⟨e, List.mem_cons_self, partOf_of_mem here⟩
    · obtain ⟨a, argument, within⟩ := partOf_of_memList later
      exact ⟨a, List.mem_cons_of_mem e argument, within⟩

end

end Expr

namespace Machine

variable {α β : Type} {m : Machine}

/-- The outcome of an expression that is evaluated alone. -/
def valueOf (m : Machine) (e : Expr) : Except Diagnostic Value := ((eval e).run m).1

/-- The outcome of some expressions that are evaluated in order. -/
def valuesOf (m : Machine) (es : List Expr) : Except Diagnostic (List Value) :=
  ((evalAll es).run m).1

/-- What comes after work that only looks has the machine as it was. -/
lemma Looks.outcome_bind {x : Action α} (hx : Looks x) (f : α → Action β) (m : Machine) :
    ((x >>= f).run m).1 = (x.run m).1 >>= fun a => ((f a).run m).1 := by
  have same := hx m
  rw [run_bind]
  rcases result : x.run m with ⟨d | a, m'⟩
  · rfl
  · rw [result] at same
    rw [show m' = m from same]
    rfl

/-- An operator is applied to the value on its left and then that on its right. -/
lemma valueOf_binary (left : Expr) (op : Operator) (right : Expr) (p : Position) :
    m.valueOf (.binary left op right p) =
      m.valueOf left >>= fun v => m.valueOf right >>= fun w =>
        (op.apply v w).mapError (·.diagnose p) := by
  rw [valueOf, eval, (looks_eval left).outcome_bind]
  refine bind_congr fun v => ?_
  rw [(looks_eval right).outcome_bind]
  refine bind_congr fun w => ?_
  rw [run_located]

/-- The values of expressions are found one after another. -/
lemma valuesOf_cons (e : Expr) (rest : List Expr) :
    m.valuesOf (e :: rest) =
      m.valueOf e >>= fun v => m.valuesOf rest >>= fun vs => .ok (v :: vs) := by
  rw [valuesOf, evalAll, (looks_eval e).outcome_bind]
  refine bind_congr fun v => ?_
  rw [(looks_evalAll rest).outcome_bind]
  rfl

/-- The outcome of a query in an expression, for the values of its arguments. -/
def answer (m : Machine) (i : Instruction) (p : Position) (vs : List Value) :
    Except Diagnostic Value :=
  ((i.perform vs).run m.drawing).1.mapError (·.diagnose p) >>= fun
    | some v => .ok v
    | none => .error ((Fault.valueMissing i).diagnose p)

/-- A query is answered for the values of its arguments. -/
lemma valueOf_query {i : Instruction} (query : i.yieldsValue) (arguments : List Expr)
    (p : Position) : m.valueOf (.call i arguments p) = m.valuesOf arguments >>= m.answer i p := by
  rw [valueOf, eval, if_pos query, (looks_evalAll arguments).outcome_bind]
  refine bind_congr fun vs => ?_
  rw [(Looks.invoke query vs p).outcome_bind, run_invoke, answer]
  refine bind_congr fun result => ?_
  cases result <;> rfl

/-- A query fails only as the instruction does: a value is never missing. -/
lemma answer_cases {i : Instruction} (query : i.yieldsValue) (p : Position) (vs : List Value) :
    (∃ v, m.answer i p vs = .ok v) ∨
      ∃ fault, ((i.perform vs).run m.drawing).1 = .error fault ∧
        m.answer i p vs = .error (fault.diagnose p) := by
  have verdict := i.perform_verdict vs m.drawing
  rw [answer]
  generalize (i.perform vs).run m.drawing = outcome at verdict
  cases verdict with
  | passed _ _ _ _ _ yields =>
    rw [query, Option.isSome_iff_exists] at yields
    obtain ⟨v, rfl⟩ := yields
    exact .inl ⟨v, rfl⟩
  | _ => exact .inr ⟨_, rfl, rfl⟩

/-- The expression has a value. -/
def Succeeds (m : Machine) (e : Expr) : Prop := ∃ v, m.valueOf e = .ok v

/-- The expression fails by its own doing: its operands and arguments have values, but it has none
for them. A call without a value needs no arguments to fail. -/
inductive FailsItself (m : Machine) : Expr → Diagnostic → Prop where
  | undefined {name p} :
    m.scope.get? name = none →
    FailsItself m (.var name p) ((Fault.undefinedVariable name).diagnose p)
  | operator {left op right p v w fault} :
    m.valueOf left = .ok v →
    m.valueOf right = .ok w →
    op.apply v w = .error fault →
    FailsItself m (.binary left op right p) (fault.diagnose p)
  | noValue {i arguments p} :
    ¬ i.yieldsValue →
    FailsItself m (.call i arguments p) ((Fault.noValue i).diagnose p)
  | query {i arguments p vs fault} :
    i.yieldsValue →
    List.Forall₂ (fun a v => m.valueOf a = .ok v) arguments vs →
    ((i.perform vs).run m.drawing).1 = .error fault →
    FailsItself m (.call i arguments p) (fault.diagnose p)

/-- A call without a value fails before its arguments are looked at. -/
lemma valueOf_noValue {i : Instruction} (statement : ¬ i.yieldsValue) (arguments : List Expr)
    (p : Position) :
    m.valueOf (.call i arguments p) = .error ((Fault.noValue i).diagnose p) := by
  rw [valueOf, eval, if_neg statement]
  rfl

/-- A variable has its value, if there is one. -/
lemma valueOf_var (name : String) (p : Position) :
    m.valueOf (.var name p) = match m.scope.get? name with
      | some v => .ok v
      | none => .error ((Fault.undefinedVariable name).diagnose p) := by
  rw [valueOf, eval, run_bind]
  change ((match m.scope.get? name with
    | some v => pure v
    | none => fail (.undefinedVariable name) p : Action Value).run m).1 = _
  cases m.scope.get? name <;> rfl

/-- Expressions that are evaluated in order have the values that they have alone. -/
lemma valuesOf_eq_ok {es : List Expr} {vs : List Value} :
    m.valuesOf es = .ok vs ↔ List.Forall₂ (fun e v => m.valueOf e = .ok v) es vs := by
  induction es generalizing vs with
  | nil =>
    rw [List.forall₂_nil_left_iff]
    exact ⟨fun same => (Except.ok.inj same).symm, fun empty => empty ▸ rfl⟩
  | cons e rest ih =>
    simp only [valuesOf_cons, bind_eq_ok, ih, List.forall₂_cons_left_iff]
    constructor
    · rintro ⟨v, here, ws, later, same⟩
      exact ⟨v, ws, here, later, (Except.ok.inj same).symm⟩
    · rintro ⟨v, ws, here, later, rfl⟩
      exact ⟨v, here, ws, later, rfl⟩

/-- A part that fails itself has that outcome. -/
lemma FailsItself.valueOf_eq {e : Expr} {d : Diagnostic} (fails : FailsItself m e d) :
    m.valueOf e = .error d := by
  cases fails with
  | undefined missing => rw [valueOf_var, missing]
  | operator left right fault =>
    rw [valueOf_binary, left, ok_bind, right, ok_bind, fault]
    rfl
  | noValue statement => exact valueOf_noValue statement _ _
  | query yields values fault =>
    rw [valueOf_query yields, valuesOf_eq_ok.mpr values, ok_bind, answer, fault]
    rfl

/-- The first of some expressions that fails does so by its own doing. -/
def FirstFailure (m : Machine) (es : List Expr) (d : Diagnostic) : Prop :=
  ∃ before e after, es = before ++ e :: after ∧ (∀ earlier ∈ before, m.Succeeds earlier) ∧
    FailsItself m e d

/-- Work succeeds if all of some expressions do, and fails as the first of them that fails. -/
def SettledBy (m : Machine) (es : List Expr) : Except Diagnostic α → Prop
  | .ok _ => ∀ e ∈ es, m.Succeeds e
  | .error d => m.FirstFailure es d

/-- Work in two parts is settled by the parts of the first, and then by those of the second. -/
lemma SettledBy.bind {es es' : List Expr} {x : Except Diagnostic α}
    {f : α → Except Diagnostic β} (hx : m.SettledBy es x)
    (hf : ∀ a, x = .ok a → m.SettledBy es' (f a)) : m.SettledBy (es ++ es') (x >>= f) := by
  -- a failure in the first part comes before everything in the second
  cases x with
  | error d =>
    obtain ⟨before, e, after, rfl, earlier, fails⟩ := hx
    exact ⟨before, e, after ++ es', by simp, earlier, fails⟩
  | ok a =>
    have rest := hf a rfl
    rw [ok_bind]
    cases result : f a with
    | ok b =>
      rw [result] at rest
      intro e mem
      rcases List.mem_append.mp mem with first | second
      · exact hx e first
      · exact rest e second
    | error d =>
      rw [result] at rest
      obtain ⟨before, e, after, rfl, earlier, fails⟩ := rest
      refine ⟨es ++ before, e, after, by simp, ?_, fails⟩
      intro e mem
      rcases List.mem_append.mp mem with first | second
      · exact hx e first
      · exact earlier e second

/-- An expression is settled by itself if it fails only by its own doing. -/
lemma SettledBy.single {e : Expr} (own : ∀ d, m.valueOf e = .error d → FailsItself m e d) :
    m.SettledBy [e] (m.valueOf e) := by
  cases result : m.valueOf e with
  | ok v =>
    intro e' mem
    rw [List.mem_singleton.mp mem]
    exact ⟨v, result⟩
  | error d => exact ⟨[], e, [], rfl, nofun, own d result⟩

/-- An operator with values on both sides is settled by itself. -/
lemma settledBy_operator {left right : Expr} {v w : Value} (hv : m.valueOf left = .ok v)
    (hw : m.valueOf right = .ok w) (op : Operator) (p : Position) :
    m.SettledBy [.binary left op right p] ((op.apply v w).mapError (·.diagnose p)) := by
  have whole : m.valueOf (.binary left op right p) = (op.apply v w).mapError (·.diagnose p) := by
    rw [valueOf_binary, hv, ok_bind, hw, ok_bind]
  rw [← whole]
  refine .single fun d failed => ?_
  rw [whole] at failed
  cases result : op.apply v w with
  | ok r =>
    rw [result] at failed
    cases failed
  | error fault =>
    rw [result] at failed
    cases failed
    exact .operator hv hw result

/-- A query with values for its arguments is settled by itself. -/
lemma settledBy_answer {i : Instruction} (query : i.yieldsValue) {arguments : List Expr}
    {vs : List Value} (values : m.valuesOf arguments = .ok vs) (p : Position) :
    m.SettledBy [.call i arguments p] (m.answer i p vs) := by
  have whole : m.valueOf (.call i arguments p) = m.answer i p vs := by
    rw [valueOf_query query, values, ok_bind]
  rw [← whole]
  refine .single fun d failed => ?_
  rw [whole] at failed
  rcases answer_cases query p vs with ⟨v, success⟩ | ⟨fault, result, same⟩
  · rw [success] at failed
    cases failed
  · rw [same] at failed
    cases failed
    exact .query query (valuesOf_eq_ok.mp values) result

mutual

/-- An expression is settled by its parts in the order of evaluation. -/
lemma settledBy_valueOf (m : Machine) : ∀ e : Expr, m.SettledBy e.evaluationOrder (m.valueOf e)
  | .number n p => by
    rw [Expr.evaluationOrder]
    exact .single fun d failed => nomatch failed
  | .text s p => by
    rw [Expr.evaluationOrder]
    exact .single fun d failed => nomatch failed
  | .var name p => by
    rw [Expr.evaluationOrder]
    refine .single fun d failed => ?_
    rw [valueOf_var] at failed
    cases found : m.scope.get? name with
    | some v =>
      rw [found] at failed
      cases failed
    | none =>
      rw [found] at failed
      cases failed
      exact .undefined found
  | .binary left op right p => by
    rw [Expr.evaluationOrder, valueOf_binary]
    refine (settledBy_valueOf m left).bind fun v hv => ?_
    exact (settledBy_valueOf m right).bind fun w hw => settledBy_operator hv hw op p
  | .call i arguments p => by
    rw [Expr.evaluationOrder]
    split
    · rename_i query
      rw [valueOf_query query]
      exact (settledBy_valuesOf m arguments).bind fun vs values => settledBy_answer query values p
    · rename_i statement
      rw [valueOf_noValue statement]
      exact ⟨[], _, _, rfl, nofun, .noValue statement⟩

/-- The values of expressions are settled by their parts. -/
lemma settledBy_valuesOf (m : Machine) :
    ∀ es : List Expr, m.SettledBy (Expr.evaluationOrderOfList es) (m.valuesOf es)
  | [] => nofun
  | e :: rest => by
    rw [Expr.evaluationOrderOfList, valuesOf_cons]
    refine (settledBy_valueOf m e).bind fun v _ => ?_
    rw [← List.append_nil (Expr.evaluationOrderOfList rest)]
    exact (settledBy_valuesOf m rest).bind fun vs _ => (nofun : ∀ e ∈ ([] : List Expr), _)

end

/-- Only one of some expressions is the first that fails. -/
lemma first_unique {es before before' after after' : List Expr} {e e' : Expr} {d d' : Diagnostic}
    (split : es = before ++ e :: after) (earlier : ∀ x ∈ before, m.Succeeds x)
    (fails : m.valueOf e = .error d) (split' : es = before' ++ e' :: after')
    (earlier' : ∀ x ∈ before', m.Succeeds x) (fails' : m.valueOf e' = .error d') : d = d' := by
  subst split
  -- neither can be later than the other, as all before it succeed
  induction before generalizing before' with
  | nil =>
    cases before' with
    | nil =>
      cases split'
      rw [fails] at fails'
      exact Except.error.inj fails'
    | cons b rest =>
      cases split'
      obtain ⟨v, success⟩ := earlier' e List.mem_cons_self
      rw [fails] at success
      cases success
  | cons b rest ih =>
    cases before' with
    | nil =>
      cases split'
      obtain ⟨v, success⟩ := earlier e' List.mem_cons_self
      rw [fails'] at success
      cases success
    | cons b' rest' =>
      obtain ⟨rfl, same⟩ := List.cons.inj split'
      exact ih (fun x mem => earlier x (List.mem_cons_of_mem b mem))
        (fun x mem => earlier' x (List.mem_cons_of_mem b mem)) same

/-- An expression has a value exactly if every part of it has one when it is evaluated alone. It
fails exactly as the first part fails in the order of evaluation, which does so by its own doing:
the operands of an operator come first, the left one before the right one, and the arguments of a
query in their order, but those of a call without a value are not evaluated. -/
theorem eval_strict (m : Machine) (e : Expr) :
    (m.Succeeds e ↔ ∀ part, part.PartOf e → m.Succeeds part) ∧
    (∀ d, m.valueOf e = .error d ↔
      ∃ before part after, e.evaluationOrder = before ++ part :: after ∧
        (∀ earlier ∈ before, m.Succeeds earlier) ∧ m.valueOf part = .error d) ∧
    (∀ d, m.valueOf e = .error d → m.FirstFailure e.evaluationOrder d) ∧
    (∀ part, part ∈ e.evaluationOrder ↔ part.PartOf e) ∧
    (∀ i arguments p, ¬ i.yieldsValue →
      ∃ d, m.valueOf (.call i arguments p) = .error d ∧ d.code.text = "R004" ∧ d.position = p) := by
  have settled := settledBy_valueOf m e
  have first : ∀ d, m.valueOf e = .error d → m.FirstFailure e.evaluationOrder d := by
    intro d failed
    rwa [failed] at settled
  refine ⟨⟨?_, fun all => all e .whole⟩, fun d => ⟨fun failed => ?_, ?_⟩, first,
    fun part => ⟨Expr.partOf_of_mem, Expr.PartOf.mem⟩, fun i arguments p statement => ?_⟩
  · rintro ⟨v, success⟩ part within
    rw [success] at settled
    exact settled part within.mem
  · obtain ⟨before, part, after, split, earlier, fails⟩ := first d failed
    exact ⟨before, part, after, split, earlier, fails.valueOf_eq⟩
  · rintro ⟨before, part, after, split, earlier, fails⟩
    cases result : m.valueOf e with
    | ok v =>
      rw [result] at settled
      obtain ⟨w, success⟩ := settled part (by simp [split])
      rw [fails] at success
      cases success
    | error d' =>
      obtain ⟨before', part', after', split', earlier', fails'⟩ := first d' result
      rw [first_unique split earlier fails split' earlier' fails'.valueOf_eq]
  · exact ⟨_, valueOf_noValue statement arguments p, rfl, rfl⟩

end Machine

end Easel

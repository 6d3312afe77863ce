import Easel.Proofs.Frames

/-!
# Scopes, name by name

A scope is a stack of frames, each with many names. For a single name it is a stack of values, each
with the depth of the frame that holds it (`Scope.stack`), and every operation on the scope is an
operation on this stack alone (`Scope.stack_apply`): an operation on another name leaves it as it
is. So after any operations, what a scope knows of a name is what a stack kept for this name alone
knows (`Scope.after_name`).
-/

namespace Easel

/-- What can be done with a scope. -/
inductive ScopeOp where
  | push
  | pop
  | declare (name : String) (v : Value)
  | assign (name : String) (v : Value)
  | get (name : String)
deriving DecidableEq, Repr

/-- Whether an operation opens or closes a frame, or is about the name. -/
def ScopeOp.concerns (name : String) : ScopeOp → Bool
  | push | pop => true
  | declare other _ | assign other _ | get other => other == name

/-- The number of frames, and the values of one name with the depths at which they were made, the
innermost first. -/
structure NameStack where
  depth : Nat
  entries : List (Nat × Value)
deriving DecidableEq, Repr

namespace NameStack

/-- Only the global frame, and no value in it. -/
def empty : NameStack := ⟨1, []⟩

/-- Opens a frame. -/
def push (s : NameStack) : NameStack := { s with depth := s.depth + 1 }

/-- Closes the innermost frame, unless it is the global one, and drops what was made in it. -/
def pop (s : NameStack) : NameStack :=
  if s.depth = 1 then s
  else ⟨s.depth - 1, s.entries.filter fun entry => entry.1 ≠ s.depth⟩

/-- Replaces the first entry if it was made in the innermost frame, and else puts one before it. -/
def declare (s : NameStack) (v : Value) : NameStack :=
  match s.entries with
  | (depth, w) :: outer =>
    if depth = s.depth then { s with entries := (depth, v) :: outer }
    else { s with entries := (s.depth, v) :: (depth, w) :: outer }
  | [] => { s with entries := [(s.depth, v)] }

/-- Changes the value of the first entry, at whatever depth it was made. -/
def assign (s : NameStack) (v : Value) : NameStack :=
  match s.entries with
  | (depth, _) :: outer => { s with entries := (depth, v) :: outer }
  | [] => { s with entries := [(s.depth, v)] }

/-- The value of the first entry. -/
def get? (s : NameStack) : Option Value := s.entries.head?.map Prod.snd

/-- The stack of a name after an operation. What is done to other names does not matter. -/
def apply (name : String) (s : NameStack) : ScopeOp → NameStack
  | .push => s.push
  | .pop => s.pop
  | .declare other v => if other = name then s.declare v else s
  | .assign other v => if other = name then s.assign v else s
  | .get _ => s

/-- The stack of a name after some operations. -/
def after (name : String) (ops : List ScopeOp) : NameStack := ops.foldl (apply name) empty

/-- What does not concern a name leaves its stack as it is. -/
lemma apply_of_not_concerns {name : String} {op : ScopeOp} (apart : op.concerns name = false)
    (s : NameStack) : s.apply name op = s := by
  cases op with
  | push | pop => cases apart
  | declare other v | assign other v => exact if_neg (beq_eq_false_iff_ne.mp apart)
  | get other => rfl

/-- Only the operations that concern a name matter to its stack. -/
lemma after_filter (name : String) (ops : List ScopeOp) :
    after name (ops.filter (·.concerns name)) = after name ops := by
  rw [after, after, List.foldl_filter]
  congr 1
  funext s op
  split
  · rfl
  · next apart => exact (apply_of_not_concerns (Bool.eq_false_iff.mpr apart) s).symm

end NameStack

namespace Scope

/-- The scope after an operation. -/
def apply (s : Scope) : ScopeOp → Scope
  | .push => s.push
  | .pop => s.pop
  | .declare name v => s.declare name v
  | .assign name v => s.assign name v
  | .get _ => s

/-- The scope after some operations, of which the first is done on an empty one. -/
def after (ops : List ScopeOp) : Scope := ops.foldl apply empty

/-- All frames, the innermost first. -/
def frames (s : Scope) : List Frame := s.calls ++ [s.globals]

/-- The values of a name in some frames, the innermost first, with the depths of the frames. -/
def entriesIn (name : String) : List Frame → List (Nat × Value)
  | [] => []
  | frame :: outer => ((frame.find? name).map (outer.length + 1, ·)).toList ++ entriesIn name outer

/-- What the scope knows of a name. -/
def stack (s : Scope) (name : String) : NameStack := ⟨s.depth, entriesIn name s.frames⟩

variable {s : Scope} {name other : String} {v : Value} {frame : Frame} {outer frames' : List Frame}

/-- There are as many frames as the scope is deep. -/
lemma length_frames (s : Scope) : s.frames.length = s.depth := by
  rw [frames, List.length_append]
  rfl

/-- A frame that holds the name puts its value first. -/
lemma entriesIn_cons_of_some (found : frame.find? name = some v) :
    entriesIn name (frame :: outer) = (outer.length + 1, v) :: entriesIn name outer := by
  rw [entriesIn, found]
  rfl

/-- A frame that does not hold the name does not matter. -/
lemma entriesIn_cons_of_none (missing : frame.find? name = none) :
    entriesIn name (frame :: outer) = entriesIn name outer := by
  rw [entriesIn, missing]
  rfl

/-- The depth of an entry is that of one of the frames. -/
lemma le_length_of_mem_entriesIn {entry : Nat × Value} {frames : List Frame}
    (mem : entry ∈ entriesIn name frames) : entry.1 ≤ frames.length := by
  induction frames with
  | nil => cases mem
  | cons frame outer ih =>
    rw [entriesIn, List.mem_append, Option.mem_toList, Option.map_eq_some_iff] at mem
    rw [List.length_cons]
    rcases mem with ⟨w, -, rfl⟩ | mem
    · exact Nat.le_refl _
    · exact Nat.le_succ_of_le (ih mem)

/-- The value of a name is the innermost one. -/
lemma findSome?_eq_head? (name : String) (frames : List Frame) :
    frames.findSome? (fun frame => frame.find? name) =
      (entriesIn name frames).head?.map Prod.snd := by
  induction frames with
  | nil => rfl
  | cons frame outer ih =>
    rw [List.findSome?_cons]
    cases found : frame.find? name with
    | some v => rw [entriesIn_cons_of_some found]; rfl
    | none => rw [entriesIn_cons_of_none found, ← ih]

/-- A name means what the first entry of its stack says. -/
lemma get?_eq_stack (s : Scope) (name : String) : s.get? name = (s.stack name).get? :=
  findSome?_eq_head? name s.frames

/-- The entries of depth one are those of the global frame. -/
lemma mem_entriesIn_globals (calls : List Frame) (globals : Frame) :
    (1, v) ∈ entriesIn name (calls ++ [globals]) ↔ globals.find? name = some v := by
  induction calls with
  | nil => simp [entriesIn]
  | cons frame calls ih =>
    have deep : (calls ++ [globals]).length + 1 ≠ 1 := by simp
    rw [List.cons_append, entriesIn, List.mem_append, ih, Option.mem_toList,
      Option.map_eq_some_iff]
    refine or_iff_right ?_
    rintro ⟨w, -, same⟩
    exact deep (Prod.mk.inj same).1

/-- A name that is put into a frame has its value there. -/
lemma entriesIn_insert (frame : Frame) (outer : List Frame) (v : Value) :
    entriesIn name (frame.insert name v :: outer) =
      (outer.length + 1, v) :: entriesIn name outer :=
  entriesIn_cons_of_some (by rw [NameMap.find?_insert, if_pos rfl])

/-- Another name that is put into a frame does not matter. -/
lemma entriesIn_insert_of_ne (apart : other ≠ name) (frame : Frame) (outer : List Frame)
    (v : Value) :
    entriesIn name (frame.insert other v :: outer) = entriesIn name (frame :: outer) := by
  rw [entriesIn, entriesIn, NameMap.find?_insert, if_neg apart.symm]

/-- A declaration changes the innermost frame. -/
lemma frames_declare (s : Scope) (name : String) (v : Value) :
    ∃ frame outer, s.frames = frame :: outer ∧
      (s.declare name v).frames = frame.insert name v :: outer := by
  obtain ⟨_ | ⟨frame, calls⟩, globals⟩ := s
  · exact ⟨globals, [], rfl, rfl⟩
  · exact ⟨frame, calls ++ [globals], rfl, rfl⟩

/-- Declaring a name declares it on its stack. -/
lemma stack_declare (s : Scope) (name : String) (v : Value) :
    (s.declare name v).stack name = (s.stack name).declare v := by
  obtain ⟨frame, outer, before, after⟩ := frames_declare s name v
  have depth : s.depth = outer.length + 1 := by rw [← length_frames, before, List.length_cons]
  rw [stack, stack, after, before, entriesIn_insert, depth_declare, depth]
  cases found : frame.find? name with
  | some w =>
    rw [entriesIn_cons_of_some found]
    exact (if_pos rfl).symm
  | none =>
    -- the first entry is from a frame further out
    rw [entriesIn_cons_of_none found, NameStack.declare]
    cases entries : entriesIn name outer with
    | nil => rfl
    | cons entry rest =>
      have below : entry.1 ≤ outer.length :=
        le_length_of_mem_entriesIn (entries ▸ List.mem_cons_self)
      have apart : entry.1 ≠ outer.length + 1 := by omega
      exact (if_neg apart).symm

/-- Declaring another name does not matter. -/
lemma stack_declare_of_ne (apart : other ≠ name) (s : Scope) (v : Value) :
    (s.declare other v).stack name = s.stack name := by
  obtain ⟨frame, outer, before, after⟩ := frames_declare s other v
  rw [stack, stack, after, before, entriesIn_insert_of_ne apart, depth_declare]

/-- An assignment that finds the name changes the value of its first entry. -/
lemma entriesIn_assignInCalls? {frames : List Frame}
    (assigned : assignInCalls? name v frames = some frames') :
    ∃ depth w rest, entriesIn name frames = (depth, w) :: rest ∧
      entriesIn name frames' = (depth, v) :: rest := by
  induction frames generalizing frames' with
  | nil => cases assigned
  | cons frame outer ih =>
    rw [assignInCalls?] at assigned
    split at assigned
    · next has =>
      cases assigned
      obtain ⟨w, found⟩ := Option.isSome_iff_exists.mp has
      exact ⟨_, w, _, entriesIn_cons_of_some found, entriesIn_insert frame outer v⟩
    · next lacks =>
      obtain ⟨outer', found, rfl⟩ := Option.map_eq_some_iff.mp assigned
      have missing : frame.find? name = none := Option.not_isSome_iff_eq_none.mp lacks
      rw [entriesIn_cons_of_none missing, entriesIn_cons_of_none missing]
      exact ih found

/-- Assigning another name in the frames of calls does not matter. -/
lemma entriesIn_assignInCalls?_of_ne (apart : other ≠ name) {frames : List Frame}
    (assigned : assignInCalls? other v frames = some frames') :
    entriesIn name frames' = entriesIn name frames := by
  induction frames generalizing frames' with
  | nil => cases assigned
  | cons frame outer ih =>
    rw [assignInCalls?] at assigned
    split at assigned
    · cases assigned
      exact entriesIn_insert_of_ne apart frame outer v
    · obtain ⟨outer', found, rfl⟩ := Option.map_eq_some_iff.mp assigned
      rw [entriesIn, entriesIn, ih found, length_assignInCalls? found]

/-- An assignment that does not find the name meets no entry of it. -/
lemma entriesIn_of_assignInCalls?_none {frames : List Frame}
    (unassigned : assignInCalls? name v frames = none) : entriesIn name frames = [] := by
  induction frames with
  | nil => rfl
  | cons frame outer ih =>
    rw [assignInCalls?] at unassigned
    split at unassigned
    · cases unassigned
    · next lacks =>
      rw [entriesIn_cons_of_none (Option.not_isSome_iff_eq_none.mp lacks)]
      exact ih (Option.map_eq_none_iff.mp unassigned)

/-- An assignment reaches the global frame if no frame of a call holds the name. -/
lemma assignInCalls?_concat (name : String) (v : Value) (globals : Frame) (calls : List Frame) :
    assignInCalls? name v (calls ++ [globals]) =
      match assignInCalls? name v calls with
      | some calls' => some (calls' ++ [globals])
      | none =>
        if globals.contains name then some (calls ++ [globals.insert name v]) else none := by
  induction calls with
  | nil => rfl
  | cons frame calls ih =>
    rw [List.cons_append, assignInCalls?, assignInCalls?, ih]
    split
    · rfl
    · cases assignInCalls? name v calls with
      | some calls' => rfl
      | none =>
        simp only [Option.map_none]
        split <;> rfl

/-- An assignment changes the innermost frame that has the name, the global one included, and is a
declaration if there is none. -/
lemma frames_assign (s : Scope) (name : String) (v : Value) :
    assignInCalls? name v s.frames = some (s.assign name v).frames ∨
      assignInCalls? name v s.frames = none ∧ s.assign name v = s.declare name v := by
  rw [frames, assignInCalls?_concat, assign]
  cases assignInCalls? name v s.calls with
  | some calls' => exact .inl rfl
  | none =>
    by_cases has : s.globals.contains name
    · left
      simp only [if_pos has]
      rfl
    · right
      simp only [if_neg has, and_self]

/-- Assigning a name assigns it on its stack. -/
lemma stack_assign (s : Scope) (name : String) (v : Value) :
    (s.assign name v).stack name = (s.stack name).assign v := by
  rcases frames_assign s name v with assigned | ⟨unassigned, declared⟩
  · obtain ⟨depth, w, rest, before, after⟩ := entriesIn_assignInCalls? assigned
    rw [stack, stack, before, after, depth_assign, NameStack.assign]
  · have none := entriesIn_of_assignInCalls?_none unassigned
    rw [declared, stack_declare, stack, none, NameStack.declare, NameStack.assign]

/-- Assigning another name does not matter. -/
lemma stack_assign_of_ne (apart : other ≠ name) (s : Scope) (v : Value) :
    (s.assign other v).stack name = s.stack name := by
  rcases frames_assign s other v with assigned | ⟨-, declared⟩
  · rw [stack, stack, entriesIn_assignInCalls?_of_ne apart assigned, depth_assign]
  · rw [declared, stack_declare_of_ne apart]

/-- Opening a frame opens one on the stack of every name. -/
lemma stack_push (s : Scope) (name : String) : s.push.stack name = (s.stack name).push := by
  have missing : (NameMap.empty : Frame).find? name = none := NameMap.find?_empty name
  have entries : entriesIn name s.push.frames = entriesIn name s.frames :=
    entriesIn_cons_of_none missing
  rw [stack, stack, entries]
  rfl

/-- What a frame holds is dropped with it, as all other entries are from frames further out. -/
lemma filter_entriesIn (name : String) (frame : Frame) (outer : List Frame) :
    (entriesIn name (frame :: outer)).filter (fun entry => entry.1 ≠ outer.length + 1) =
      entriesIn name outer := by
  have kept : (entriesIn name outer).filter (fun entry => entry.1 ≠ outer.length + 1) =
      entriesIn name outer := by
    refine List.filter_eq_self.mpr fun entry mem => decide_eq_true ?_
    have below := le_length_of_mem_entriesIn mem
    omega
  rw [entriesIn, List.filter_append, kept]
  cases frame.find? name with
  | none => rfl
  | some v => simp

/-- Closing a frame closes one on the stack of every name. -/
lemma stack_pop (s : Scope) (name : String) : s.pop.stack name = (s.stack name).pop := by
  obtain ⟨_ | ⟨frame, calls⟩, globals⟩ := s
  · rfl
  · have length : calls.length + 1 = (calls ++ [globals]).length := by simp
    have dropped := filter_entriesIn name frame (calls ++ [globals])
    rw [← length] at dropped
    rw [NameStack.pop, if_neg (by simp [stack, depth]), NameStack.mk.injEq]
    exact ⟨rfl, dropped.symm⟩

/-- Each operation on a scope is, for each name, an operation on the stack of the name. -/
lemma stack_apply (s : Scope) (name : String) (op : ScopeOp) :
    (s.apply op).stack name = (s.stack name).apply name op := by
  cases op with
  | push => exact stack_push s name
  | pop => exact stack_pop s name
  | declare other v =>
    by_cases same : other = name
    · subst same
      rw [apply, NameStack.apply, if_pos rfl, stack_declare]
    · rw [apply, NameStack.apply, if_neg same, stack_declare_of_ne same]
  | assign other v =>
    by_cases same : other = name
    · subst same
      rw [apply, NameStack.apply, if_pos rfl, stack_assign]
    · rw [apply, NameStack.apply, if_neg same, stack_assign_of_ne same]
  | get other => rfl

/-- Operations on a scope are operations on the stack of every name. -/
lemma stack_foldl (name : String) (ops : List ScopeOp) (s : Scope) :
    (ops.foldl apply s).stack name = ops.foldl (NameStack.apply name) (s.stack name) := by
  induction ops generalizing s with
  | nil => rfl
  | cons op ops ih => rw [List.foldl_cons, List.foldl_cons, ih, stack_apply]

/-- After any operations, what a scope knows of a name is what its own stack knows. -/
lemma stack_after (name : String) (ops : List ScopeOp) :
    (after ops).stack name = NameStack.after name ops :=
  stack_foldl name ops empty

/-- Insertions keep the global frame in order. -/
lemma sorted_globals_apply (sorted : NameMap.Sorted s.globals.entries) (op : ScopeOp) :
    NameMap.Sorted (s.apply op).globals.entries := by
  have declared : ∀ name v, NameMap.Sorted (s.declare name v).globals.entries := by
    intro name v
    rw [declare]
    split
    · exact sorted.insertEntry name v
    · exact sorted
  cases op with
  | push | pop | get _ => exact sorted
  | declare name v => exact declared name v
  | assign name v =>
    rw [apply, assign]
    split
    · exact sorted
    · split
      · exact sorted.insertEntry name v
      · exact declared name v

/-- The global names stay in order, whatever is done. -/
lemma sorted_globals_after (ops : List ScopeOp) : NameMap.Sorted (after ops).globals.entries := by
  have run : ∀ s : Scope, NameMap.Sorted s.globals.entries →
      NameMap.Sorted (ops.foldl apply s).globals.entries := by
    induction ops with
    | nil => exact fun _ sorted => sorted
    | cons op ops ih => exact fun s sorted => ih _ (sorted_globals_apply sorted op)
  exact run empty List.Pairwise.nil

/-- The global frame lists a name with a value exactly if the stack of the name has this value at
depth one. -/
lemma mem_globals_after {ops : List ScopeOp} :
    (name, v) ∈ (after ops).globals.toList ↔ (1, v) ∈ (NameStack.after name ops).entries := by
  rw [NameMap.toList, (sorted_globals_after ops).mem_iff_lookup?, ← NameMap.find?,
    ← mem_entriesIn_globals (after ops).calls, ← stack_after]
  rfl

/-- After any operations on a scope there is still a global frame, and for every name the scope
agrees with a stack that was kept for this name alone: in the number of frames, in what the name
means, and in its entry in the global frame, which lists every name once. So what was done to other
names does not matter. -/
theorem after_name (ops : List ScopeOp) (name : String) :
    1 ≤ (after ops).depth ∧
      (after ops).depth = (NameStack.after name ops).depth ∧
      (after ops).get? name = (NameStack.after name ops).get? ∧
      (∀ v, (name, v) ∈ (after ops).globals.toList ↔ (1, v) ∈ (NameStack.after name ops).entries) ∧
      NameMap.Sorted (after ops).globals.toList ∧
      let own := ops.filter (·.concerns name)
      (after own).get? name = (after ops).get? name ∧
        ∀ v, (name, v) ∈ (after own).globals.toList ↔ (name, v) ∈ (after ops).globals.toList := by
  have agree : ∀ ops, (after ops).get? name = (NameStack.after name ops).get? := fun ops => by
    rw [get?_eq_stack, stack_after]
  refine ⟨Nat.succ_pos _, ?_, agree ops, fun v => mem_globals_after, sorted_globals_after ops, ?_,
    fun v => ?_⟩
  · rw [← stack_after]
    rfl
  · rw [agree, agree, NameStack.after_filter]
  · rw [mem_globals_after, mem_globals_after, NameStack.after_filter]

end Scope

end Easel

import Easel.Program.Outline
import Easel.Proofs.Names
import Easel.Proofs.NumberText
import Easel.Proofs.QuotedText

/-!
# What the outline of a program tells

The outline of a program tells everything about it but the places: two compiled programs have the
same dump exactly if their trees are equal (`Program.dump_eq_iff`).

A dump is taken apart in three steps. As no line has a line break or a leading space of its own, the
dump tells its lines and how deep they stand (`OutlineLine.eq_of_join`). The depths alone tell which
lines belong below which, so the lines are those of one forest (`Forest.eq_of_outline`). And each
node tells by its first letter what it is a node of, and by the rest of its text all that is not
below it (`Tree.eq_of_forest`).
-/

namespace Easel

/-- The text stands on a line of its own and does not look indented. -/
structure PlainLine (text : String) : Prop where
  newLine : '\n' ∉ text.toList
  space : text.toList.head? ≠ some ' '

/-- What stands before the first of two equal marks is told from what stands after it. -/
lemma eq_of_append_mark {c : Char} {cs cs' ds ds' : List Char} (free : c ∉ cs) (free' : c ∉ cs')
    (same : cs ++ c :: ds = cs' ++ c :: ds') : cs = cs' ∧ ds = ds' := by
  rcases List.append_eq_append_iff.mp same with
    ⟨_ | ⟨d, es⟩, front, back⟩ | ⟨_ | ⟨d, es⟩, front, back⟩
  · exact ⟨by simp [front], (List.cons.inj back).2⟩
  · obtain ⟨rfl, -⟩ := List.cons.inj back
    exact absurd (by simp [front]) free'
  · exact ⟨by simp [front], (List.cons.inj back).2.symm⟩
  · obtain ⟨rfl, -⟩ := List.cons.inj back
    exact absurd (by simp [front]) free

namespace OutlineLine

/-- A line is told from what follows it, and its depth from its text. -/
lemma eq_of_render {l l' : OutlineLine} {cs cs' : List Char} (plain : PlainLine l.text)
    (plain' : PlainLine l'.text) (same : l.render.toList ++ cs = l'.render.toList ++ cs') :
    l = l' ∧ cs = cs' := by
  obtain ⟨depth, text⟩ := l
  obtain ⟨depth', text'⟩ := l'
  simp only [render, String.toList_append, String.toList_ofList, List.append_assoc] at same
  rw [← List.append_assoc, ← List.append_assoc (List.replicate (2 * depth') ' ')] at same
  obtain ⟨line, rest⟩ := eq_of_append_mark (c := '\n') (by simp [plain.newLine])
    (by simp [plain'.newLine]) same
  have texts := congrArg (List.dropWhile (· == ' ')) line
  rw [Grammar.dropWhile_replicate _ plain.space,
    Grammar.dropWhile_replicate _ plain'.space] at texts
  have depths := congrArg List.length line
  rw [texts] at depths
  simp only [List.length_append, List.length_replicate, Nat.add_right_cancel_iff] at depths
  refine ⟨?_, rest⟩
  rw [OutlineLine.mk.injEq]
  exact ⟨by omega, String.toList_inj.mp texts⟩

/-- The lines of a text can be told from it. -/
lemma eq_of_join {ls ls' : List OutlineLine} (plain : ∀ l ∈ ls, PlainLine l.text)
    (plain' : ∀ l ∈ ls', PlainLine l.text)
    (same : String.join (ls.map render) = String.join (ls'.map render)) : ls = ls' := by
  replace same := congrArg String.toList same
  rw [String.toList_join, String.toList_join] at same
  induction ls generalizing ls' with
  | nil =>
    cases ls' with
    | nil => rfl
    | cons l' ls' => simp [render] at same
  | cons l ls ih =>
    cases ls' with
    | nil => simp [render] at same
    | cons l' ls' =>
      rw [List.forall_mem_cons] at plain plain'
      rw [List.map_cons, List.map_cons, List.flatMap_cons, List.flatMap_cons] at same
      obtain ⟨rfl, rest⟩ := eq_of_render plain.1 plain'.1 same
      rw [ih plain.2 plain'.2 rest]

end OutlineLine

/-- Texts in the shape of trees side by side: the first tree has a text and what is below it, and
the other trees come after it. -/
inductive Forest where
  | nil
  | node (text : String) (below after : Forest)

namespace Forest

/-- The lines of a forest at a depth. -/
def outline (depth : Nat) : Forest → List OutlineLine
  | nil => []
  | node text below after => ⟨depth, text⟩ :: (below.outline (depth + 1) ++ after.outline depth)

/-- All texts have a property. -/
def All (P : String → Prop) : Forest → Prop
  | nil => True
  | node text below after => P text ∧ below.All P ∧ after.All P

/-- What holds of the texts of a forest holds of its lines. -/
lemma All.outline {P : String → Prop} {f : Forest} (all : f.All P) (depth : Nat) :
    ∀ l ∈ f.outline depth, P l.text := by
  induction f generalizing depth with
  | nil => exact List.forall_mem_nil _
  | node text below after ihBelow ihAfter =>
    obtain ⟨here, below, after⟩ := all
    refine List.forall_mem_cons.mpr ⟨here, List.forall_mem_append.mpr ?_⟩
    exact ⟨ihBelow below (depth + 1), ihAfter after depth⟩

/-- The lines go on above a depth, if they do. -/
def EndsAt (depth : Nat) (ls : List OutlineLine) : Prop := ∀ l ∈ ls.head?, l.depth < depth

/-- The depths of lines tell which forest they are of, and where it ends. -/
lemma eq_of_outline_append {f f' : Forest} {depth : Nat} {ls ls' : List OutlineLine}
    (ends : EndsAt depth ls) (ends' : EndsAt depth ls')
    (same : f.outline depth ++ ls = f'.outline depth ++ ls') : f = f' ∧ ls = ls' := by
  induction f generalizing f' depth ls ls' with
  | nil =>
    cases f' with
    | nil => exact ⟨rfl, same⟩
    | node text' below' after' =>
      subst same
      exact absurd (ends _ rfl) (lt_irrefl _)
  | node text below after ihBelow ihAfter =>
    cases f' with
    | nil =>
      subst same
      exact absurd (ends' _ rfl) (lt_irrefl _)
    | node text' below' after' =>
      -- what is below ends where the depth falls back to that of the node or less
      have back : ∀ {after : Forest} {ls}, EndsAt depth ls →
          EndsAt (depth + 1) (after.outline depth ++ ls) := by
        intro after ls ends l first
        cases after with
        | nil => exact (ends l first).trans (Nat.lt_succ_self _)
        | node => cases first; exact Nat.lt_succ_self _
      simp only [outline, List.cons_append, List.append_assoc, List.cons.injEq,
        OutlineLine.mk.injEq, true_and] at same
      obtain ⟨rfl, lines⟩ := same
      obtain ⟨rfl, rest⟩ := ihBelow (back ends) (back ends') lines
      obtain ⟨rfl, others⟩ := ihAfter ends ends' rest
      exact ⟨rfl, others⟩

/-- The lines of a forest tell the forest. -/
lemma eq_of_outline {f f' : Forest} {depth : Nat} (same : f.outline depth = f'.outline depth) :
    f = f' := by
  have none : EndsAt depth [] := nofun
  refine (eq_of_outline_append none none ?_).1
  rw [same]

end Forest

/-- What begins with its initial is told apart by it. -/
lemma initial_eq {α : Type} {heading : α → String} {initial : α → Char}
    (begins : ∀ a, (heading a).toList.head? = some (initial a)) {a b : α}
    (same : heading a = heading b) : initial a = initial b := by
  have first := begins a
  rw [same, begins] at first
  exact (Option.some.inj first).symm

/-- No two operators have the same symbol. -/
lemma Operator.symbol_injective : Function.Injective symbol := by
  intro op op' same
  have known := ofSymbol?_symbol op
  rw [same, ofSymbol?_symbol] at known
  exact (Option.some.inj known).symm

/-- The symbols of operators stand on one line. -/
lemma Operator.newLine_not_mem_symbol (op : Operator) : '\n' ∉ op.symbol.toList := by
  cases op <;> decide

/-- No two instructions have the same name. -/
lemma Instruction.name_injective : Function.Injective name := by
  intro i i' same
  have known := ofName?_name i
  rw [same, ofName?_name] at known
  exact (Option.some.inj known).symm

/-- The names of instructions stand on one line. -/
lemma Instruction.newLine_not_mem_name (i : Instruction) : '\n' ∉ i.name.toList := by
  cases i <;> decide

namespace Tree

/-- The text of a node. -/
def heading : Tree Float → String
  | number n => "Number " ++ Number.text n
  | text s => "String " ++ Text.quote s
  | var name => "Variable " ++ name
  | binary _ op _ => "Binary " ++ op.symbol
  | call instruction _ => "Call " ++ instruction.name

/-- The letter that the text of a node begins with. -/
def initial : Tree Float → Char
  | number _ => 'N'
  | text _ => 'S'
  | var _ => 'V'
  | binary _ _ _ => 'B'
  | call _ _ => 'C'

mutual

/-- The forest below a node. -/
def branches : Tree Float → Forest
  | number _ => .nil
  | text _ => .nil
  | var _ => .nil
  | binary left _ right =>
    .node left.heading left.branches (.node right.heading right.branches .nil)
  | call _ arguments => forest arguments

/-- The forest of some expressions. -/
def forest : List (Tree Float) → Forest
  | [] => .nil
  | e :: rest => .node e.heading e.branches (forest rest)

end

/-- The text of a node begins with the letter of its kind. -/
lemma head?_heading (e : Tree Float) : e.heading.toList.head? = some e.initial := by
  cases e <;> simp [heading, initial]

mutual

/-- An expression is told by the text of its node and by what is below it. -/
lemma eq_of_node : ∀ (e : Tree Float) {e' : Tree Float}, e.heading = e'.heading →
    e.branches = e'.branches → e = e'
  -- kinds of nodes differ in their first letter, so the rest of the text can be compared
  | number n, e', same, _ => by
    have kind := initial_eq head?_heading same
    cases e' with
    | number n' =>
      rw [Number.text_injective ((String.append_right_inj _).mp same)]
    | _ => cases kind
  | text s, e', same, _ => by
    have kind := initial_eq head?_heading same
    cases e' with
    | text s' => rw [Text.quote_injective ((String.append_right_inj _).mp same)]
    | _ => cases kind
  | var name, e', same, _ => by
    have kind := initial_eq head?_heading same
    cases e' with
    | var name' => rw [(String.append_right_inj _).mp same]
    | _ => cases kind
  | binary left op right, e', same, deeper => by
    have kind := initial_eq head?_heading same
    cases e' with
    | binary left' op' right' =>
      rw [branches, branches] at deeper
      injection deeper with leftText leftBelow others
      injection others with rightText rightBelow
      rw [Operator.symbol_injective ((String.append_right_inj _).mp same),
        eq_of_node left leftText leftBelow, eq_of_node right rightText rightBelow]
    | _ => cases kind
  | call instruction arguments, e', same, deeper => by
    have kind := initial_eq head?_heading same
    cases e' with
    | call instruction' arguments' =>
      rw [branches, branches] at deeper
      rw [Instruction.name_injective ((String.append_right_inj _).mp same),
        eq_of_forest arguments deeper]
    | _ => cases kind

/-- The forest of some expressions tells the expressions. -/
lemma eq_of_forest : ∀ (es : List (Tree Float)) {es' : List (Tree Float)},
    forest es = forest es' → es = es'
  | [], [], _ => rfl
  | [], e' :: es', same => by
    rw [forest, forest] at same
    cases same
  | e :: es, [], same => by
    rw [forest, forest] at same
    cases same
  | e :: es, e' :: es', same => by
    rw [forest, forest] at same
    injection same with text deeper others
    rw [eq_of_node e text deeper, eq_of_forest es others]

end

end Tree

namespace Line

/-- The text of a statement. -/
def heading : Line Float → String
  | spawn _ _ => "Spawn"
  | assign name _ => "Assign " ++ name
  | label name => "Label " ++ name
  | goTo name _ => "GoTo [" ++ name ++ "]"
  | call instruction _ => "Call " ++ instruction.name

/-- The letter that the text of a statement begins with. -/
def initial : Line Float → Char
  | spawn _ _ => 'S'
  | assign _ _ => 'A'
  | label _ => 'L'
  | goTo _ _ => 'G'
  | call _ _ => 'C'

/-- The expressions of a statement. -/
def operands : Line Float → List (Tree Float)
  | spawn x y => [x, y]
  | assign _ value => [value]
  | label _ => []
  | goTo _ condition => [condition]
  | call _ arguments => arguments

/-- The forest of some statements. -/
def forest : List (Line Float) → Forest
  | [] => .nil
  | l :: rest => .node l.heading (Tree.forest l.operands) (forest rest)

/-- The text of a statement begins with the letter of its kind. -/
lemma head?_heading (l : Line Float) : l.heading.toList.head? = some l.initial := by
  cases l <;> simp [heading, initial]

/-- A statement is told by its text and by its expressions. -/
lemma eq_of_node {l l' : Line Float} (same : l.heading = l'.heading)
    (operands : l.operands = l'.operands) : l = l' := by
  have kind := initial_eq head?_heading same
  cases l with
  | spawn x y =>
    cases l' with
    | spawn x' y' =>
      cases operands
      rfl
    | _ => cases kind
  | assign name value =>
    cases l' with
    | assign name' value' =>
      cases operands
      rw [(String.append_right_inj _).mp same]
    | _ => cases kind
  | label name =>
    cases l' with
    | label name' => rw [(String.append_right_inj _).mp same]
    | _ => cases kind
  | goTo name condition =>
    cases l' with
    | goTo name' condition' =>
      cases operands
      rw [(String.append_right_inj _).mp ((String.append_left_inj _).mp same)]
    | _ => cases kind
  | call instruction arguments =>
    cases l' with
    | call instruction' arguments' =>
      cases operands
      rw [Instruction.name_injective ((String.append_right_inj _).mp same)]
    | _ => cases kind

/-- The forest of some statements tells the statements. -/
lemma eq_of_forest {ls ls' : List (Line Float)} (same : forest ls = forest ls') : ls = ls' := by
  induction ls generalizing ls' with
  | nil =>
    cases ls' with
    | nil => rfl
    | cons l' ls' => cases same
  | cons l ls ih =>
    cases ls' with
    | nil => cases same
    | cons l' ls' =>
      rw [forest, forest] at same
      injection same with text deeper others
      rw [eq_of_node text (Tree.eq_of_forest _ deeper), ih others]

end Line

mutual

/-- The lines of an expression are those of its node and of what is below it. -/
lemma Expr.outline_eq : ∀ (e : Expr) (depth : Nat), e.outline depth =
    ⟨depth, e.tree.heading⟩ :: e.tree.branches.outline (depth + 1)
  | .number _ _, depth | .text _ _, depth | .var _ _, depth => by
    rw [outline, tree, Tree.heading, Tree.branches, Forest.outline]
  | .binary left op right _, depth => by
    rw [outline, tree, Tree.heading, Tree.branches, outline_eq left, outline_eq right]
    simp [Forest.outline]
  | .call instruction arguments _, depth => by
    rw [outline, tree, Tree.heading, Tree.branches, outlineList_eq arguments]

/-- The outline of some expressions is that of their forest. -/
lemma Expr.outlineList_eq : ∀ (es : List Expr) (depth : Nat),
    outlineList depth es = (Tree.forest (trees es)).outline depth
  | [], depth => by rw [outlineList, trees, Tree.forest, Forest.outline]
  | e :: es, depth => by
    rw [outlineList, trees, Tree.forest, outline_eq e, outlineList_eq es]
    rfl

end

namespace Tree

/-- If its names are free of line breaks, so is the text of a node. -/
lemma plain_heading (e : Tree Float) (free : ∀ name ∈ e.names, '\n' ∉ name.toList) :
    PlainLine e.heading := by
  constructor
  · cases e with
    | number n => simp [heading, Number.newLine_not_mem_text]
    | text s => simp [heading, Text.newLine_not_mem_quote]
    | var name =>
      have plain := free name (by simp [names])
      simp [heading, plain]
    | binary left op right => simp [heading, op.newLine_not_mem_symbol]
    | call instruction arguments => simp [heading, instruction.newLine_not_mem_name]
  · rw [head?_heading]
    cases e <;> simp [initial]

mutual

/-- What stands below a node stands on lines of its own. -/
lemma plain_branches : ∀ e : Tree Float, (∀ name ∈ e.names, '\n' ∉ name.toList) →
    e.branches.All PlainLine
  | number _, _ | text _, _ | var _, _ => by
    rw [branches]
    trivial
  | binary left op right, free => by
    rw [names, List.forall_mem_append] at free
    rw [branches]
    exact ⟨left.plain_heading free.1, plain_branches left free.1, right.plain_heading free.2,
      plain_branches right free.2, trivial⟩
  | call instruction arguments, free => by
    rw [branches]
    exact plain_forest arguments (by rwa [names] at free)

/-- Expressions stand on lines of their own. -/
lemma plain_forest : ∀ es : List (Tree Float), (∀ name ∈ namesOfAll es, '\n' ∉ name.toList) →
    (forest es).All PlainLine
  | [], _ => by
    rw [forest]
    trivial
  | e :: es, free => by
    rw [namesOfAll, List.forall_mem_append] at free
    rw [forest]
    exact ⟨e.plain_heading free.1, plain_branches e free.1, plain_forest es free.2⟩

end

end Tree

namespace Line

/-- The text of a statement stands on a line of its own. -/
lemma plain_heading (l : Line Float) (free : ∀ name ∈ l.names, '\n' ∉ name.toList) :
    PlainLine l.heading := by
  constructor
  · cases l with
    | spawn x y => simp [heading]
    | assign name value | label name | goTo name condition =>
      have plain := free name (by simp [names])
      simp [heading, plain]
    | call instruction arguments => simp [heading, instruction.newLine_not_mem_name]
  · rw [head?_heading]
    cases l <;> simp [initial]

/-- The names in the expressions of a statement are names in the statement. -/
lemma namesOfAll_operands (l : Line Float) : Tree.namesOfAll l.operands ⊆ l.names := by
  cases l <;> simp [operands, names, Tree.namesOfAll]

/-- Statements stand on lines of their own. -/
lemma plain_forest {ls : List (Line Float)}
    (free : ∀ l ∈ ls, ∀ name ∈ l.names, '\n' ∉ name.toList) : (forest ls).All PlainLine := by
  induction ls with
  | nil => trivial
  | cons l ls ih =>
    rw [List.forall_mem_cons] at free
    refine ⟨l.plain_heading free.1, ?_, ih free.2⟩
    exact Tree.plain_forest _ fun name mem => free.1 name (l.namesOfAll_operands mem)

end Line

/-- The outline of a statement is its text, and below it that of its expressions. -/
lemma Stmt.outline_eq (s : Stmt) (depth : Nat) : s.outline depth =
    ⟨depth, s.line.heading⟩ :: (Tree.forest s.line.operands).outline (depth + 1) := by
  cases s <;> simp [outline, line, Line.heading, Line.operands, Tree.forest, Forest.outline,
    Expr.outline_eq, Expr.outlineList_eq]

namespace Program

/-- The first line of the outline of a program. -/
def title (size : Nat) : String := "Program (" ++ toString size ++ " statements)"

/-- The first line of an outline stands on a line of its own. -/
lemma plain_title (size : Nat) : PlainLine (title size) := by
  have digits : '\n' ∉ Nat.toDigits 10 size := fun mem =>
    absurd (Number.isDigit_of_mem_toDigits mem) (by decide)
  exact ⟨by simp [title, digits], by simp [title]⟩

/-- The outline of a program is that of a forest that its trees determine. -/
lemma outline_eq (p : Program) :
    p.outline = (Forest.node (title p.lines.length) (Line.forest p.lines) .nil).outline 0 := by
  have statements : ∀ ss : List Stmt,
      ss.flatMap (Stmt.outline 1) = (Line.forest (ss.map Stmt.line)).outline 1 := by
    intro ss
    induction ss with
    | nil => rfl
    | cons s ss ih =>
      rw [List.flatMap_cons, ih, s.outline_eq]
      rfl
  rw [outline, statements]
  simp [Forest.outline, title, lines, size]

/-- The lines of a compiled program are plain. -/
lemma plain_outline {source : String} {p : Program} (compiled : compile source = .ok p) :
    ∀ l ∈ p.outline, PlainLine l.text := by
  rw [outline_eq]
  have forest : (Line.forest p.lines).All PlainLine := Line.plain_forest fun l line name mem =>
    Text.newLine_not_mem_of_isWord (isWord_of_mem_names compiled line mem)
  exact Forest.All.outline (f := .node _ _ .nil) ⟨plain_title _, forest, trivial⟩ 0

/-- Compiled programs have the same dump exactly if they are the same up to places. -/
theorem dump_eq_iff {source source' : String} {p q : Program} (compiled : compile source = .ok p)
    (compiled' : compile source' = .ok q) : p.dump = q.dump ↔ p.lines = q.lines := by
  constructor
  · intro same
    have outlines := OutlineLine.eq_of_join (plain_outline compiled) (plain_outline compiled') same
    rw [outline_eq, outline_eq] at outlines
    injection Forest.eq_of_outline outlines with title statements
    exact Line.eq_of_forest statements
  · intro same
    rw [dump, dump, outline_eq, outline_eq, same]

open Grammar in
/-- Brackets have no line of their own, but they show in what stands below what. -/
theorem dump_eq_iff_brackets : ∃ p q,
    compile "Spawn(x, a - (b - c))" = .ok p ∧ compile "Spawn(x, a - b - c)" = .ok q ∧
      (p.dump = q.dump ↔ p.lines = q.lines) ∧ p.dump ≠ q.dump := by
  have name : ∀ n lexeme place, Level n [⟨.identifier, lexeme, place⟩] (.var lexeme) :=
    fun n _ _ => Level.mono (Nat.zero_le n) (.var rfl)
  have minus : ∀ {ls l rs r} place, Level 3 ls l → Level 2 rs r →
      Level 3 (ls ++ ⟨.operator, "-", place⟩ :: rs) (.binary l .sub r) :=
    fun _ drv drv' => .binary drv rfl rfl (by decide) drv'
  have opens : ∀ place, Token.isSymbol ⟨.symbol, "(", place⟩ "(" := fun _ => rfl
  have comma : ∀ place, Token.isSymbol ⟨.symbol, ",", place⟩ "," := fun _ => rfl
  have closes : ∀ place, Token.isSymbol ⟨.symbol, ")", place⟩ ")" := fun _ => rfl
  have nested : ∃ p, compile "Spawn(x, a - (b - c))" = .ok p ∧ p.lines =
      [.spawn (.var "x") (.binary (.var "a") .sub (.binary (.var "b") .sub (.var "c")))] := by
    have scanned : Token.scan "Spawn(x, a - (b - c))" = .ok [⟨.function, "Spawn", ⟨1, 1⟩⟩,
        ⟨.symbol, "(", ⟨1, 6⟩⟩, ⟨.identifier, "x", ⟨1, 7⟩⟩, ⟨.symbol, ",", ⟨1, 8⟩⟩,
        ⟨.identifier, "a", ⟨1, 10⟩⟩, ⟨.operator, "-", ⟨1, 12⟩⟩, ⟨.symbol, "(", ⟨1, 14⟩⟩,
        ⟨.identifier, "b", ⟨1, 15⟩⟩, ⟨.operator, "-", ⟨1, 17⟩⟩, ⟨.identifier, "c", ⟨1, 19⟩⟩,
        ⟨.symbol, ")", ⟨1, 20⟩⟩, ⟨.symbol, ")", ⟨1, 21⟩⟩, .eof ⟨1, 22⟩] := by decide +kernel
    rw [compile, scanned, ok_bind]
    apply word_iff.mp
    have inner := minus ⟨1, 17⟩ (name 3 "b" ⟨1, 15⟩) (name 2 "c" ⟨1, 19⟩)
    have grouped := Level.group (opens ⟨1, 14⟩) (Level.mono (by decide) inner) (closes ⟨1, 20⟩)
    have outer := minus ⟨1, 12⟩ (name 3 "a" ⟨1, 10⟩) (Level.mono (Nat.zero_le 2) grouped)
    exact .last (.intro rfl (opens _) (name top "x" ⟨1, 7⟩) (comma _)
      (Level.mono (by decide) outer) (closes _))
  have chained : ∃ q, compile "Spawn(x, a - b - c)" = .ok q ∧ q.lines =
      [.spawn (.var "x") (.binary (.binary (.var "a") .sub (.var "b")) .sub (.var "c"))] := by
    have scanned : Token.scan "Spawn(x, a - b - c)" = .ok [⟨.function, "Spawn", ⟨1, 1⟩⟩,
        ⟨.symbol, "(", ⟨1, 6⟩⟩, ⟨.identifier, "x", ⟨1, 7⟩⟩, ⟨.symbol, ",", ⟨1, 8⟩⟩,
        ⟨.identifier, "a", ⟨1, 10⟩⟩, ⟨.operator, "-", ⟨1, 12⟩⟩, ⟨.identifier, "b", ⟨1, 14⟩⟩,
        ⟨.operator, "-", ⟨1, 16⟩⟩, ⟨.identifier, "c", ⟨1, 18⟩⟩, ⟨.symbol, ")", ⟨1, 19⟩⟩,
        .eof ⟨1, 20⟩] := by decide +kernel
    rw [compile, scanned, ok_bind]
    apply word_iff.mp
    have inner := minus ⟨1, 12⟩ (name 3 "a" ⟨1, 10⟩) (name 2 "b" ⟨1, 14⟩)
    have outer := minus ⟨1, 16⟩ inner (name 2 "c" ⟨1, 18⟩)
    exact .last (.intro rfl (opens _) (name top "x" ⟨1, 7⟩) (comma _)
      (Level.mono (by decide) outer) (closes _))
  obtain ⟨p, compiled, lines⟩ := nested
  obtain ⟨q, compiled', lines'⟩ := chained
  have told := dump_eq_iff compiled compiled'
  refine ⟨p, q, compiled, compiled', told, fun same => ?_⟩
  have trees := told.mp same
  rw [lines, lines'] at trees
  simp at trees

end Program

end Easel

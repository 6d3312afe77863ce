/-!
# Positions

A place in a program text, by line and column. Every token, expression, statement and
diagnostic carries one. Lines end at a line feed, and each character fills one column.
-/

namespace Easel

/-- A place in a text; line and column count from one. -/
structure Position where
  line : Nat
  column : Nat
deriving DecidableEq, Repr, Inhabited

namespace Position

/-- The place of a text's first character. -/
def start : Position := ⟨1, 1⟩

/-- The place just after a character: a line feed opens the next line. -/
def advance (p : Position) (c : Char) : Position :=
  if c = '\n' then ⟨p.line + 1, 1⟩ else ⟨p.line, p.column + 1⟩

/-- The place just after a run of characters. -/
def advanceAll (p : Position) (cs : List Char) : Position :=
  cs.foldl advance p

/-- Without characters, a place stays where it is. -/
@[simp]
theorem advanceAll_nil (p : Position) : p.advanceAll [] = p := rfl

/-- A place moves past one character after another. -/
@[simp]
theorem advanceAll_cons (p : Position) (c : Char) (cs : List Char) :
    p.advanceAll (c :: cs) = (p.advance c).advanceAll cs := rfl

/-- Going on after a first run is the same as taking both runs at once. -/
theorem advanceAll_append (p : Position) (cs ds : List Char) :
    p.advanceAll (cs ++ ds) = (p.advanceAll cs).advanceAll ds := by
  simp [advanceAll, List.foldl_append]

end Position

end Easel

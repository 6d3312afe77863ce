import Easel.Proofs.Execution
import Mathlib.Data.List.Forall2

/-!
# When calls are refused

A call is checked for its number of arguments, for their kinds, for a cursor, and last for what is
special to the instruction: the name of a color, or the size of a rectangle. The first check that a
call does not pass decides how it fails, and a call that passes them all succeeds
(`Instruction.perform_checks`).

The arguments of a call that passes the first two are all there, and of the kinds that the
instruction reads (`Command.ofCallBy_fits`). So no call reads beyond its arguments, and no argument
that cannot be read is replaced (`Instruction.performStrictly_eq`).
-/

namespace Easel

/-- A value of a kind that a parameter takes. -/
inductive Fits : ParameterKind → Value → Prop where
  | number {n} :
    Fits .number (.number n)
  | bool {b} :
    Fits .number (.bool b)
  | text {s} :
    Fits .text (.text s)

namespace Fits

variable {v : Value}

/-- A value that fits a number counts as an integer. -/
lemma asInt? (fits : Fits .number v) : ∃ n, v.asInt? = some n := by
  cases fits <;> exact ⟨_, rfl⟩

/-- A value that fits a text is one. -/
lemma asText? (fits : Fits .text v) : ∃ s, v = .text s := by
  cases fits
  exact ⟨_, rfl⟩

end Fits

/-- A parameter accepts what fits its kind. -/
lemma Parameter.accepts_iff (p : Parameter) (v : Value) : p.accepts v ↔ Fits p.kind v := by
  obtain ⟨name, kind⟩ := p
  cases kind with
  | number =>
    cases v with
    | number n => exact ⟨fun _ => .number, fun _ => rfl⟩
    | bool b => exact ⟨fun _ => .bool, fun _ => rfl⟩
    | text s => exact ⟨nofun, nofun⟩
  | text =>
    cases v with
    | text s => exact ⟨fun _ => .text, fun _ => rfl⟩
    | number n => exact ⟨nofun, nofun⟩
    | bool b => exact ⟨nofun, nofun⟩

namespace Instruction

variable {i : Instruction} {arguments : List Value}

/-- The arguments are as many as the parameters, and of the kinds that these take. -/
abbrev Takes (i : Instruction) (arguments : List Value) : Prop :=
  List.Forall₂ (fun p v => Fits p.kind v) i.parameters arguments

/-- The number of arguments is not that of the parameters. -/
def WrongCount (i : Instruction) (arguments : List Value) : Prop :=
  arguments.length ≠ i.parameters.length

/-- Some argument is of a kind that its parameter does not take. -/
def WrongKind (i : Instruction) (arguments : List Value) : Prop :=
  ∃ pair ∈ i.parameters.zip arguments, ¬ Fits pair.1.kind pair.2

/-- There is no cursor, and the instruction needs one. -/
def NoCursor (i : Instruction) (d : Drawing) : Prop :=
  d.cursor = none ∧ i ≠ .getCanvasSize

/-- A color is to be drawn with that is not of the palette. -/
def UnknownColor (i : Instruction) (arguments : List Value) : Prop :=
  i = .color ∧ ∃ name, arguments = [.text name] ∧ ∀ color ∈ Color.palette, color.name ≠ name

/-- A rectangle is to be drawn whose width or height, brought to an integer, is not positive. -/
def EmptyRectangle (i : Instruction) (arguments : List Value) : Prop :=
  i = .drawRectangle ∧ ∃ width height w h, arguments[3]? = some width ∧
    arguments[4]? = some height ∧ width.asInt? = some w ∧ height.asInt? = some h ∧ (w ≤ 0 ∨ h ≤ 0)

/-- Arguments are taken if neither their number nor their kinds are wrong. -/
lemma takes_iff : i.Takes arguments ↔ ¬ i.WrongCount arguments ∧ ¬ i.WrongKind arguments := by
  rw [Takes, List.forall₂_iff_zip, WrongCount, WrongKind]
  push Not
  constructor
  · rintro ⟨count, kinds⟩
    exact ⟨count.symm, fun pair mem => kinds mem⟩
  · rintro ⟨count, kinds⟩
    exact ⟨count.symm, fun mem => kinds _ mem⟩

/-- A wrong number of arguments is reported first. -/
lemma validate_wrongCount (wrong : i.WrongCount arguments) :
    i.validate arguments = .error (.argumentCount i arguments.length) :=
  if_neg wrong

/-- An argument of a wrong kind is reported next. -/
lemma validate_wrongKind (count : ¬ i.WrongCount arguments) (wrong : i.WrongKind arguments) :
    ∃ p given, i.validate arguments = .error (.argumentKind i p given) := by
  rw [validate, if_pos (not_not.mp count)]
  cases found : i.mismatch? arguments with
  | some pair => exact ⟨pair.1, pair.2, rfl⟩
  | none =>
    obtain ⟨pair, mem, misfit⟩ := wrong
    rw [mismatch?, Option.map_eq_none_iff, List.find?_eq_none] at found
    have accepted : pair.1.accepts pair.2 := by simpa using found pair mem
    exact absurd ((pair.1.accepts_iff pair.2).mp accepted) misfit

/-- Arguments that are taken pass the check. -/
lemma validate_takes (takes : i.Takes arguments) : i.validate arguments = .ok () := by
  obtain ⟨count, kinds⟩ := List.forall₂_iff_zip.mp takes
  have none : i.mismatch? arguments = none := by
    rw [mismatch?, Option.map_eq_none_iff, List.find?_eq_none]
    intro pair mem
    simpa using (pair.1.accepts_iff pair.2).mpr (kinds mem)
  rw [validate, if_pos count.symm, none]

/-- Every parameter has an argument of its kind. -/
lemma Takes.argument (takes : i.Takes arguments) {k : Nat} {p : Parameter}
    (there : i.parameters[k]? = some p) : ∃ v, arguments[k]? = some v ∧ Fits p.kind v := by
  rw [Takes] at takes
  generalize i.parameters = parameters at takes there
  induction takes generalizing k with
  | nil => cases there
  | @cons q v parameters arguments fits _ ih =>
    cases k with
    | zero =>
      cases there
      exact ⟨v, rfl, fits⟩
    | succ k => exact ih there

end Instruction

namespace Command

variable {i : Instruction} {arguments : List Value}

/-- An argument as a coordinate, if it is there and counts as a number. -/
def intAt? (arguments : List Value) (index : Nat) : Option Int := do
  let v ← arguments[index]?
  let n ← v.asInt?
  return toCoordinate n

/-- An argument as a text, if it is there and is one. -/
def textAt? (arguments : List Value) (index : Nat) : Option String := do
  let v ← arguments[index]?
  v.asText?

/-- The command of a call, with the way to read its arguments left open. -/
def ofCallBy {m : Type → Type} [Monad m] (int : Nat → m Int) (text : Nat → m String) :
    Instruction → m Command
  | .color => return .color (← text 0)
  | .size => return .size (← int 0)
  | .drawLine => return .drawLine (← int 0) (← int 1) (← int 2)
  | .drawCircle => return .drawCircle (← int 0) (← int 1) (← int 2)
  | .drawRectangle =>
    return .drawRectangle (← int 0) (← int 1) (← int 2) (← int 3) (← int 4)
  | .fill => return .fill
  | .getActualX => return .getActualX
  | .getActualY => return .getActualY
  | .getCanvasSize => return .getCanvasSize
  | .getColorCount =>
    return .getColorCount (← text 0) ⟨← int 1, ← int 2⟩ ⟨← int 3, ← int 4⟩
  | .isBrushColor => return .isBrushColor (← text 0)
  | .isBrushSize => return .isBrushSize (← int 0)
  | .isCanvasColor => return .isCanvasColor (← text 0) (← int 1) (← int 2)

/-- A number that is asked for is there among arguments that are taken. -/
lemma intAt?_eq (takes : i.Takes arguments) {k : Nat} {p : Parameter}
    (there : i.parameters[k]? = some p) (number : p.kind = .number) :
    intAt? arguments k = some (intAt arguments k) := by
  obtain ⟨v, given, fits⟩ := takes.argument there
  rw [number] at fits
  obtain ⟨n, counts⟩ := fits.asInt?
  simp [intAt?, intAt, given, counts]

/-- A text that is asked for is there among arguments that are taken. -/
lemma textAt?_eq (takes : i.Takes arguments) {k : Nat} {p : Parameter}
    (there : i.parameters[k]? = some p) (text : p.kind = .text) :
    textAt? arguments k = some (textAt arguments k) := by
  obtain ⟨v, given, fits⟩ := takes.argument there
  rw [text] at fits
  obtain ⟨s, rfl⟩ := fits.asText?
  simp [textAt?, textAt, given, Value.asText?]

/-- Arguments that fit the signature can all be read. -/
lemma ofCallBy_fits (takes : i.Takes arguments) :
    ofCallBy (intAt? arguments) (textAt? arguments) i = some (ofCall i arguments) := by
  have int {k : Nat} {p : Parameter} := @intAt?_eq i arguments takes k p
  have text {k : Nat} {p : Parameter} := @textAt?_eq i arguments takes k p
  cases i with
  | fill | getActualX | getActualY | getCanvasSize => rfl
  | color | isBrushColor =>
    rw [ofCallBy, text (k := 0) rfl rfl]
    rfl
  | size | isBrushSize =>
    rw [ofCallBy, int (k := 0) rfl rfl]
    rfl
  | drawLine | drawCircle =>
    rw [ofCallBy, int (k := 0) rfl rfl, int (k := 1) rfl rfl, int (k := 2) rfl rfl]
    rfl
  | drawRectangle =>
    rw [ofCallBy, int (k := 0) rfl rfl, int (k := 1) rfl rfl, int (k := 2) rfl rfl,
      int (k := 3) rfl rfl, int (k := 4) rfl rfl]
    rfl
  | getColorCount =>
    rw [ofCallBy, text (k := 0) rfl rfl, int (k := 1) rfl rfl, int (k := 2) rfl rfl,
      int (k := 3) rfl rfl, int (k := 4) rfl rfl]
    rfl
  | isCanvasColor =>
    rw [ofCallBy, text (k := 0) rfl rfl, int (k := 1) rfl rfl, int (k := 2) rfl rfl]
    rfl

end Command

/-- A color is unknown if it is not in the palette. -/
lemma Color.ofName?_eq_none {name : String} :
    ofName? name = none ↔ ∀ color ∈ palette, color.name ≠ name := by
  simp [ofName?, List.find?_eq_none]

/-- Limiting a number keeps its sign. -/
lemma toCoordinate_le_zero {n : Int} : toCoordinate n ≤ 0 ↔ n ≤ 0 := by
  unfold toCoordinate coordinateLimit
  omega

namespace Instruction

variable {i : Instruction} {arguments : List Value} {d : Drawing}

/-- A call with arguments that are taken carries out its command. -/
lemma perform_takes (takes : i.Takes arguments) :
    (i.perform arguments).run d = ((Command.ofCall i arguments).runIn Float).run d := by
  rw [perform, performIn, validate_takes takes]

/-- Without a cursor, a call that needs one is refused. -/
lemma perform_noCursor (takes : i.Takes arguments) (missing : i.NoCursor d) :
    (i.perform arguments).run d = (.error .notSpawned, d) := by
  obtain ⟨canvas, cursor⟩ := d
  obtain ⟨none, other⟩ := missing
  obtain rfl : cursor = .none := none
  rw [perform_takes takes]
  cases i with
  | getCanvasSize => exact absurd rfl other
  | _ => rfl

/-- With a cursor, a color that is unknown is refused. -/
lemma perform_unknownColor (cursor : ¬ i.NoCursor d) (unknown : i.UnknownColor arguments) :
    ∃ name, (i.perform arguments).run d = (.error (.unknownColor name), d) := by
  obtain ⟨rfl, name, rfl, outside⟩ := unknown
  obtain ⟨canvas, _ | cursor⟩ := d
  · exact absurd ⟨rfl, by decide⟩ cursor
  · refine ⟨name, ?_⟩
    rw [perform_takes (.cons .text .nil), Command.ofCall]
    change ((Command.color name).runIn Float).run _ = _
    rw [Command.runIn, Color.ofName?_eq_none.mpr outside]
    rfl

/-- The width and the height of a rectangle are read as integers. -/
lemma Takes.rectangle (takes : drawRectangle.Takes arguments) :
    ∃ width height w h, arguments[3]? = some width ∧ arguments[4]? = some height ∧
      width.asInt? = some w ∧ height.asInt? = some h ∧
      Command.intAt arguments 3 = toCoordinate w ∧ Command.intAt arguments 4 = toCoordinate h := by
  obtain ⟨width, third, wide⟩ := takes.argument (k := 3) rfl
  obtain ⟨height, fourth, high⟩ := takes.argument (k := 4) rfl
  obtain ⟨w, hw⟩ := wide.asInt?
  obtain ⟨h, hh⟩ := high.asInt?
  refine ⟨width, height, w, h, third, fourth, hw, hh, ?_, ?_⟩
  · simp [Command.intAt, third, hw]
  · simp [Command.intAt, fourth, hh]

/-- With a cursor, an empty rectangle is refused. -/
lemma perform_emptyRectangle (takes : i.Takes arguments) (cursor : ¬ i.NoCursor d)
    (empty : i.EmptyRectangle arguments) :
    ∃ w h, (i.perform arguments).run d = (.error (.emptyRectangle w h), d) := by
  obtain ⟨rfl, width, height, w, h, third, fourth, hw, hh, flat⟩ := empty
  obtain ⟨canvas, _ | cursor⟩ := d
  · exact absurd ⟨rfl, by decide⟩ cursor
  · have flat' : Command.intAt arguments 3 ≤ 0 ∨ Command.intAt arguments 4 ≤ 0 := by
      simpa [Command.intAt, third, fourth, hw, hh, toCoordinate_le_zero] using flat
    refine ⟨Command.intAt arguments 3, Command.intAt arguments 4, ?_⟩
    rw [perform_takes takes, Command.ofCall]
    simp only [Command.runIn, if_pos flat']
    rfl

/-- A call that passes all checks succeeds. It yields something if the instruction has a value. -/
lemma perform_passed (takes : i.Takes arguments) (cursor : ¬ i.NoCursor d)
    (color : ¬ i.UnknownColor arguments) (rectangle : ¬ i.EmptyRectangle arguments) :
    ∃ result d', (i.perform arguments).run d = (.ok result, d') ∧
      result.isSome = i.yieldsValue := by
  rw [perform_takes takes]
  obtain ⟨canvas, _ | cursor⟩ := d
  · cases i with
    | getCanvasSize => exact ⟨_, _, rfl, rfl⟩
    | _ => exact absurd ⟨rfl, by decide⟩ cursor
  · cases i with
    | color =>
      obtain ⟨v, given, fits⟩ := takes.argument (k := 0) rfl
      obtain ⟨name, rfl⟩ := fits.asText?
      obtain ⟨count, -⟩ := List.forall₂_iff_zip.mp takes
      obtain rfl : arguments = [.text name] := by
        obtain ⟨v, rfl⟩ := List.length_eq_one_iff.mp count.symm
        cases given
        rfl
      change ∃ result d', ((Command.color name).runIn Float).run _ = (.ok result, d') ∧ _
      cases found : Color.ofName? name with
      | none => exact absurd ⟨rfl, name, rfl, Color.ofName?_eq_none.mp found⟩ color
      | some chosen =>
        rw [Command.runIn, found]
        exact ⟨_, _, rfl, rfl⟩
    | drawRectangle =>
      obtain ⟨width, height, w, h, third, fourth, hw, hh, readW, readH⟩ := takes.rectangle
      have solid : ¬ (Command.intAt arguments 3 ≤ 0 ∨ Command.intAt arguments 4 ≤ 0) := by
        rw [readW, readH, toCoordinate_le_zero, toCoordinate_le_zero]
        exact fun flat => rectangle ⟨rfl, width, height, w, h, third, fourth, hw, hh, flat⟩
      rw [Command.ofCall]
      simp only [Command.runIn, if_neg solid]
      exact ⟨_, _, rfl, rfl⟩
    | _ => exact ⟨_, _, rfl, rfl⟩

/-- How a call can end: refused by the first check that it does not pass, or with success. -/
inductive Verdict (i : Instruction) (arguments : List Value) (d : Drawing) :
    Except Fault (Option Value) × Drawing → Prop where
  | wrongCount :
    i.WrongCount arguments →
    Verdict i arguments d (.error (.argumentCount i arguments.length), d)
  | wrongKind {p given} :
    ¬ i.WrongCount arguments →
    i.WrongKind arguments →
    Verdict i arguments d (.error (.argumentKind i p given), d)
  | noCursor :
    ¬ i.WrongCount arguments →
    ¬ i.WrongKind arguments →
    i.NoCursor d →
    Verdict i arguments d (.error .notSpawned, d)
  | unknownColor {name} :
    ¬ i.WrongCount arguments →
    ¬ i.WrongKind arguments →
    ¬ i.NoCursor d →
    i.UnknownColor arguments →
    Verdict i arguments d (.error (.unknownColor name), d)
  | emptyRectangle {w h} :
    ¬ i.WrongCount arguments →
    ¬ i.WrongKind arguments →
    ¬ i.NoCursor d →
    ¬ i.UnknownColor arguments →
    i.EmptyRectangle arguments →
    Verdict i arguments d (.error (.emptyRectangle w h), d)
  | passed {result d'} :
    ¬ i.WrongCount arguments →
    ¬ i.WrongKind arguments →
    ¬ i.NoCursor d →
    ¬ i.UnknownColor arguments →
    ¬ i.EmptyRectangle arguments →
    result.isSome = i.yieldsValue →
    Verdict i arguments d (.ok result, d')

/-- Each call gets the verdict that its arguments and the drawing ask for. -/
lemma perform_verdict (i : Instruction) (arguments : List Value) (d : Drawing) :
    Verdict i arguments d ((i.perform arguments).run d) := by
  by_cases count : i.WrongCount arguments
  · rw [perform, performIn, validate_wrongCount count]
    exact .wrongCount count
  by_cases kind : i.WrongKind arguments
  · obtain ⟨p, given, invalid⟩ := validate_wrongKind count kind
    rw [perform, performIn, invalid]
    exact .wrongKind count kind
  have takes : i.Takes arguments := takes_iff.mpr ⟨count, kind⟩
  by_cases cursor : i.NoCursor d
  · rw [perform_noCursor takes cursor]
    exact .noCursor count kind cursor
  by_cases color : i.UnknownColor arguments
  · obtain ⟨name, done⟩ := perform_unknownColor cursor color
    rw [done]
    exact .unknownColor count kind cursor color
  by_cases rectangle : i.EmptyRectangle arguments
  · obtain ⟨w, h, done⟩ := perform_emptyRectangle takes cursor rectangle
    rw [done]
    exact .emptyRectangle count kind cursor color rectangle
  · obtain ⟨result, d', done, yields⟩ := perform_passed takes cursor color rectangle
    rw [done]
    exact .passed count kind cursor color rectangle yields

/-- A call has no result at all if it reads an argument that is not there, or not of the kind that
is read. -/
def performStrictly (i : Instruction) (arguments : List Value) :
    Option (Sketch (Option Value)) :=
  match i.validate arguments with
  | .error fault => some (throw fault)
  | .ok () =>
    (Command.ofCallBy (Command.intAt? arguments) (Command.textAt? arguments) i).map (·.runIn Float)

/-- All that a call reads is there. -/
lemma performStrictly_eq (i : Instruction) (arguments : List Value) :
    i.performStrictly arguments = some (i.perform arguments) := by
  rw [performStrictly, perform, performIn]
  by_cases takes : i.Takes arguments
  · rw [validate_takes takes, Command.ofCallBy_fits takes]
    rfl
  · by_cases count : i.WrongCount arguments
    · rw [validate_wrongCount count]
    · have kind : i.WrongKind arguments := by
        by_contra right
        exact takes (takes_iff.mpr ⟨count, right⟩)
      obtain ⟨p, given, refused⟩ := validate_wrongKind count kind
      rw [refused]

/-- A call is refused by the first check that it does not pass: for the number of its arguments, for
their kinds, for want of a cursor, for the name of a color, for the size of a rectangle. If it
passes them all it succeeds, and yields something exactly if the instruction has a value. A call
that is refused changes nothing, and no call reads an argument that is not there or not of the right
kind. -/
theorem perform_checks (i : Instruction) (arguments : List Value) (d : Drawing) :
    let outcome := (i.perform arguments).run d
    let refused (code : String) := ∃ fault, outcome.1 = .error fault ∧ fault.code.text = code
    (refused "R003" ↔ i.WrongCount arguments) ∧
    (refused "R004" ↔ ¬ i.WrongCount arguments ∧ i.WrongKind arguments) ∧
    (refused "R009" ↔ ¬ i.WrongCount arguments ∧ ¬ i.WrongKind arguments ∧ i.NoCursor d) ∧
    (refused "R005" ↔ ¬ i.WrongCount arguments ∧ ¬ i.WrongKind arguments ∧ ¬ i.NoCursor d ∧
      i.UnknownColor arguments) ∧
    (refused "R006" ↔ ¬ i.WrongCount arguments ∧ ¬ i.WrongKind arguments ∧ ¬ i.NoCursor d ∧
      ¬ i.UnknownColor arguments ∧ i.EmptyRectangle arguments) ∧
    ((∃ result, outcome.1 = .ok result) ↔
      ¬ i.WrongCount arguments ∧ ¬ i.WrongKind arguments ∧ ¬ i.NoCursor d ∧
      ¬ i.UnknownColor arguments ∧ ¬ i.EmptyRectangle arguments) ∧
    (∀ fault, outcome.1 = .error fault → outcome.2 = d) ∧
    (∀ result, outcome.1 = .ok result → (result.isSome ↔ i.yieldsValue)) ∧
    i.performStrictly arguments = some (i.perform arguments) := by
  intro outcome refused
  have strict := i.performStrictly_eq arguments
  have verdict : Verdict i arguments d outcome := i.perform_verdict arguments d
  clear_value outcome
  cases verdict <;> simp [refused, Fault.code, DiagnosticCode.text, *]

end Instruction

end Easel

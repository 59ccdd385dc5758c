import LineClosure.Document.Digit
import LineClosure.Document.Display

/-! The grammar of a command line. Long options may be shortened as long as only one fits,
a value follows its option or an equals sign, single-letter switches can be joined, and
after `--` nothing is an option. What no option claims is left over for the caller. -/

namespace LineClosure.CommandLine

/-- What an option does to the settings gathered so far. A value of two dashes behind an
equals sign counts as the end of the options and is taken away, which leaves none. -/
inductive Effect (σ : Type) where
  | switch (apply : σ → σ)
  | value (apply : Option Text → σ → Except Text σ)
  | help
  | version

structure OptionSpec (σ : Type) where
  flags : List String
  effect : Effect σ

inductive Stop where
  | help
  | version
  | error (message : Text)
  | within (command : String) (reason : Stop)
deriving DecidableEq

/-- How an argument reads before its neighbours are known. A flag may have something behind
it in its own argument, joined to it or after an equals sign. -/
inductive Reading (σ : Type) where
  | plain
  | dashes
  | known (flag : Text) (option : OptionSpec σ) (behind : Option Text)
  | unknown

structure Token (σ : Type) where
  text : Text
  reading : Reading σ

namespace OptionSpec

variable {σ : Type}

def takesValue (o : OptionSpec σ) : Bool :=
  match o.effect with
  | .value _ => true
  | _ => false

def label (o : OptionSpec σ) : String := String.intercalate "/" o.flags

def fault (o : OptionSpec σ) (message : Text) : Stop :=
  .error ("argument " ++ o.label ++ ": " ++ message)

end OptionSpec

variable {σ : Type}

def flagTable (options : List (OptionSpec σ)) : List (Text × OptionSpec σ) :=
  options.flatMap fun o => o.flags.map fun flag => (.whole flag, o)

def splitEquals (text : Text) : Text × Option Text :=
  match text.points.span (· ≠ '='.toNat) with
  | (front, _ :: back) => (.ofPoints front, some (.ofPoints back))
  | _ => (text, none)

/-- Digits, or digits around a point with at least one behind it, after a minus. The line may
be ended. -/
def isNegativeNumber : Text → Bool
  | .torn .. => false
  | .whole s =>
    let unended := match s.toList.reverse with
      | '\n' :: front => front.reverse
      | _ => s.toList
    match unended with
    | '-' :: body =>
      match body.span Digit.isDigit with
      | (whole, []) => !whole.isEmpty
      | (_, '.' :: fraction) => !fraction.isEmpty && fraction.all Digit.isDigit
      | _ => false
    | _ => false

/-- The flags an argument may be short for. A single dash can only join a letter with what
follows it. -/
def completions (table : List (Text × OptionSpec σ)) (text : Text) :
    List (Text × OptionSpec σ × Option Text) :=
  if text.startsWith "--" then
    let (front, behind) := splitEquals text
    (table.filter fun entry => entry.1.startsWith front).map fun (flag, o) => (flag, o, behind)
  else
    table.filterMap fun (flag, o) =>
      if flag = text.take 2 then some (flag, o, some (text.drop 2))
      else if flag.startsWith text then some (flag, o, none)
      else none

def classify (options : List (OptionSpec σ)) (text : Text) : Except Stop (Reading σ) :=
  let table := flagTable options
  if text.length ≤ 1 || !text.startsWith "-" then .ok .plain
  else
    match table.lookup text, splitEquals text with
    | some o, _ => .ok (.known text o none)
    | none, (front, behind) =>
      match table.lookup front with
      | some o => .ok (.known front o behind)
      | none =>
        match completions table text with
        | [(flag, o, behind)] => .ok (.known flag o behind)
        | [] =>
          if isNegativeNumber text || text.contains ' ' then .ok .plain
          else .ok .unknown
        | several =>
          .error (.error ("ambiguous option: " ++ text ++ " could match " ++
            Text.join ", " (several.map (·.1))))

def tokens (options : List (OptionSpec σ)) : List Text → Except Stop (List (Token σ))
  | [] => .ok []
  | text :: rest =>
    if text = "--" then .ok (⟨text, .dashes⟩ :: rest.map fun text => ⟨text, .plain⟩)
    else do
      let reading ← classify options text
      return ⟨text, reading⟩ :: (← tokens options rest)

structure Outcome (σ : Type) where
  settings : σ
  leftOver : List Text := []
  seen : List String := []

namespace Outcome

def perform (outcome : Outcome σ) (o : OptionSpec σ) (value : Text) :
    Except Stop (Outcome σ) :=
  let outcome := { outcome with seen := outcome.seen ++ o.flags }
  match o.effect with
  | .switch apply => .ok { outcome with settings := apply outcome.settings }
  | .value apply =>
    match apply (if value = "--" then none else some value) outcome.settings with
    | .ok settings => .ok { outcome with settings }
    | .error message => .error (o.fault message)
  | .help => .error .help
  | .version => .error .version

def leave (outcome : Outcome σ) (text : Text) : Outcome σ :=
  { outcome with leftOver := outcome.leftOver ++ [text] }

def performAll (outcome : Outcome σ) (options : List (OptionSpec σ × Option Text))
    (value : Text) : Except Stop (Outcome σ) :=
  options.foldlM (fun outcome (o, own) => outcome.perform o (own.getD value)) outcome

end Outcome

/-- The option that has to take its value from the next argument. Only the last one can. -/
def lacking? (options : List (OptionSpec σ × Option Text)) : Option (OptionSpec σ) := do
  let (o, value) ← options.getLast?
  if o.takesValue && value.isNone then some o else none

def OptionSpec.ignored (o : OptionSpec σ) (text : Text) : Stop :=
  o.fault ("ignored explicit argument " ++ quoted text)

/-- Reads letters joined to a single-letter flag. Letters behind a switch are switches, up to
one that takes the rest of them as its value. -/
def unjoin (table : List (Text × OptionSpec σ)) (o : OptionSpec σ) :
    List Nat → Except Stop (List (OptionSpec σ × Option Text))
  | [] => .ok [(o, none)]
  | letter :: rest =>
    if o.takesValue then .ok [(o, some (.ofPoints (letter :: rest)))]
    else
      match table.lookup ("-" ++ Text.ofPoints [letter]) with
      | none => .error (o.ignored (.ofPoints (letter :: rest)))
      | some o' => (unjoin table o' rest).map ((o, none) :: ·)

def spread (table : List (Text × OptionSpec σ)) (flag : Text) (o : OptionSpec σ) :
    Option Text → Except Stop (List (OptionSpec σ × Option Text))
  | none => .ok [(o, none)]
  | some text =>
    if o.takesValue then .ok [(o, some text)]
    else if text = "" || flag.startsWith "--" then .error (o.ignored text)
    else unjoin table o text.points

/-- Carries out tokens in order. `command` is asked to take over at the first plain argument,
together with everything behind it; without it plain arguments are left over. -/
def run (table : List (Text × OptionSpec σ))
    (command : Option (List Text → Outcome σ → Except Stop (Outcome σ))) :
    List (Token σ) → Outcome σ → Except Stop (Outcome σ)
  | [], outcome => .ok outcome
  | token :: rest, outcome =>
    match token.reading with
    | .known flag o behind => do
      let group ← spread table flag o behind
      match lacking? group with
      | none => run table command rest (← outcome.performAll group "")
      | some last =>
        match rest with
        | ⟨text, .plain⟩ :: rest => run table command rest (← outcome.performAll group text)
        | _ => .error (last.fault "expected one argument")
    | .unknown => run table command rest (outcome.leave token.text)
    | .plain | .dashes =>
      match command with
      | some takeOver =>
        if rest.isEmpty && token.text = "--" then .ok (outcome.leave token.text)
        else takeOver (token.text :: rest.map Token.text) outcome
      | none => run table command rest (outcome.leave token.text)

def parse (options : List (OptionSpec σ)) (required : List String)
    (command : Option (List Text → Outcome σ → Except Stop (Outcome σ)))
    (arguments : List Text) (settings : σ) : Except Stop (Outcome σ) := do
  let outcome ← run (flagTable options) command (← tokens options arguments) { settings }
  let missing := required.filter fun flag => !outcome.seen.contains flag
  if missing.isEmpty then return outcome
  else throw (.error ("the following arguments are required: " ++
    String.intercalate ", " missing))

end LineClosure.CommandLine

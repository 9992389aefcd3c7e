/-
**Arguments of a command.**

The words of a command line are options, which start with a dash, and plain arguments.  An option
may be shortened as long as no other starts alike, and its value may follow an equals sign.  After
two dashes alone every word is plain, and so is a word that looks like a negative number or holds a
space.  Commands take either a fixed number of arguments, which may stand between options, or
arguments that may be left out, which stand together.

Main definitions

* `OptionKind`, `ArgumentRules` — what a command takes;
* `NoCommand` — why a command line gives no command;
* `Word`, `ArgumentRules.words` — the words of a command line by their kind;
* `Arguments`, `ArgumentRules.read` — what a command was given.
-/
import DesignRegistry.Text.Shape

namespace DesignRegistry

/-! ### Rules -/

/-- The texts that a command line can ask for instead of a command. -/
inductive Notice where
  | help | version
deriving DecidableEq, Repr

/-- What an option takes. -/
inductive OptionKind where
  /-- Nothing; the command line asks for a text. -/
  | notice (n : Notice)
  /-- Nothing. -/
  | switch
  /-- A value that is accepted. -/
  | value (accepted : String → Bool)

/-- What a command takes. -/
structure ArgumentRules where
  /-- The number of plain arguments. -/
  arguments : Nat
  /-- Whether plain arguments may be left out. -/
  mayLack : Bool
  /-- The options. -/
  options : List (String × OptionKind)

/-- Why a command line gives no command. -/
inductive NoCommand where
  /-- It asks for a text. -/
  | notice (n : Notice)
  /-- It breaks the rules. -/
  | misuse
  /-- It is empty. -/
  | nothing
deriving DecidableEq, Repr

namespace NoCommand

/-- The exit code. -/
def exitCode : NoCommand → Nat
  | .notice _ => 0
  | .misuse => 2
  | .nothing => 1

end NoCommand

/-- A word of a command line. -/
inductive Word where
  /-- An argument, or the value of an option. -/
  | plain (text : String)
  /-- The two dashes after which every word is plain. -/
  | separator
  /-- An option, and what an equals sign attaches to it. -/
  | option (name : String) (kind : OptionKind) (attached : Option String)
  /-- An option of one letter, and what follows the letter. -/
  | letters (letter : Char) (kind : OptionKind) (rest : List Char)
  /-- What looks like an option and is none. -/
  | unknown

namespace ArgumentRules

/-! ### Words -/

/-- Whether a text, less the dash in front, is a negative number. -/
def isNegativeBody (s : List Char) : Bool :=
  isWholeNumber s
    || (match s.dropWhile isDecimal with
      | '.' :: fraction => isWholeNumber fraction
      | _ => false)

/-- The word that no option explains. -/
def unexplained (body : List Char) : Word :=
  if isNegativeBody body || body.contains ' ' then .plain (String.ofList ('-' :: body))
  else .unknown

/-- The parts before and after the first equals sign. -/
def halves (s : List Char) : String × Option String :=
  match cutAt? ['='] s with
  | some (front, back) => (String.ofList front, some (String.ofList back))
  | none => (String.ofList s, none)

/-- The options whose names start with a text. -/
def startingWith (r : ArgumentRules) (front : String) : List (String × OptionKind) :=
  r.options.filter fun o => Text.hasFront o.1 front

/-- The word for a text that starts with a dash, followed by `body`. -/
def dashed (r : ArgumentRules) (body : List Char) : Except NoCommand Word :=
  let text := String.ofList ('-' :: body)
  let (front, attached) := halves ('-' :: body)
  match r.options.lookup text, r.options.lookup front, body with
  | some kind, _, _ => .ok (.option text kind none)
  | none, some kind, _ => .ok (.option front kind attached)
  | none, none, '-' :: _ =>
    match r.startingWith front with
    | [] => .ok (unexplained body)
    | [(name, kind)] => .ok (.option name kind attached)
    | _ => .error .misuse
  | none, none, c :: rest =>
    match r.options.lookup (String.ofList ['-', c]) with
    | some kind => .ok (.letters c kind rest)
    | none => .ok (unexplained body)
  | none, none, [] => .ok (.plain text)

/-- The word for a text. -/
def word (r : ArgumentRules) (text : String) : Except NoCommand Word :=
  match text.toList with
  | '-' :: body => r.dashed body
  | _ => .ok (.plain text)

/-- The words for texts. -/
def words (r : ArgumentRules) : List String → Except NoCommand (List Word)
  | [] => .ok []
  | t :: ts =>
    if t = "--" then .ok (.separator :: ts.map .plain)
    else do return (← r.word t) :: (← r.words ts)

end ArgumentRules

/-! ### Arguments -/

/-- What a command was given. -/
structure Arguments where
  /-- The plain arguments in order. -/
  given : List String := []
  /-- The options in order, with their values. -/
  settings : List (String × String) := []
  /-- Whether there is more than the command takes. -/
  surplus : Bool := false

namespace Arguments

/-- Whether a switch is on. -/
def has (a : Arguments) (name : String) : Bool := a.settings.any (·.1 == name)

/-- The values of an option in order. -/
def values (a : Arguments) (name : String) : List String :=
  (a.settings.filter (·.1 == name)).map Prod.snd

/-- The value of an option; the last one counts. -/
def value? (a : Arguments) (name : String) : Option String := (a.values name).getLast?

/-- The value of an option, if it has one that is not empty. -/
def filled? (a : Arguments) (name : String) : Option String := (a.value? name).filter (· != "")

/-- The argument at a place. -/
def argument (a : Arguments) (i : Nat) : String := a.given[i]?.getD ""

/-- Adds a setting. -/
def set (a : Arguments) (name value : String) : Arguments :=
  { a with settings := a.settings ++ [(name, value)] }

end Arguments

namespace ArgumentRules

/-- How many arguments a command can still take, and whether the word before was one. -/
structure Intake where
  /-- The number of arguments that can still be taken. -/
  free : Nat
  /-- Whether the word before was plain or a separator. -/
  running : Bool

/-- The intake after an option: arguments that may be left out stand together. -/
def pause (r : ArgumentRules) (s : Intake) : Intake :=
  ⟨if r.mayLack && s.running then 0 else s.free, false⟩

/-- The arguments with one more. -/
def take (a : Arguments) (s : Intake) (text : String) : Arguments :=
  if s.free = 0 then { a with surplus := true } else { a with given := a.given ++ [text] }

/-- What a notice of one letter amounts to: more of the same letter may follow, and then what is no
option. -/
def noticeWith (n : Notice) (letter : Char) (rest : List Char) : NoCommand :=
  match rest.dropWhile (· == letter) with
  | [] => .notice n
  | c :: _ => if c = '-' ∨ c = '=' then .misuse else .notice n

/-- What words give, added to what the words before gave. -/
def gather (r : ArgumentRules) (a : Arguments) (s : Intake) :
    List Word → Except NoCommand Arguments
  | [] => .ok a
  | .plain t :: ws => r.gather (take a s t) ⟨s.free - 1, true⟩ ws
  | .separator :: ws =>
    r.gather { a with surplus := a.surplus || (s.free == 0 && !s.running) } ⟨s.free, true⟩ ws
  | .unknown :: ws => r.gather { a with surplus := true } (r.pause s) ws
  | .option _ (.notice n) none :: _ => .error (.notice n)
  | .option _ (.notice _) (some _) :: _ => .error .misuse
  | .letters letter (.notice n) rest :: _ => .error (noticeWith n letter rest)
  | .letters .. :: _ => .error .misuse
  | .option name .switch none :: ws => r.gather (a.set name "") (r.pause s) ws
  | .option _ .switch (some _) :: _ => .error .misuse
  | .option name (.value accepted) (some t) :: ws =>
    if accepted t then r.gather (a.set name t) (r.pause s) ws else .error .misuse
  | .option name (.value accepted) none :: .plain t :: ws =>
    if accepted t then r.gather (a.set name t) (r.pause s) ws else .error .misuse
  | .option _ (.value _) none :: _ => .error .misuse

/-- What a command is given by texts. -/
def read (r : ArgumentRules) (texts : List String) : Except NoCommand Arguments := do
  let a ← r.gather {} ⟨r.arguments, false⟩ (← r.words texts)
  if a.given.length < r.arguments && !r.mayLack then .error .misuse else .ok a

end ArgumentRules

end DesignRegistry

import SpaceLink.Text.Split

/-! # Arguments

Arguments are options, one command, and the words of the command. An option is written with two
hyphens. Its value is the next argument, which must not begin with a hyphen, or stands behind an
equals sign; a flag has none. Behind two hyphens alone all arguments are words. No option comes
twice, but one of the program may come once before the command and once behind it. In the place of
the command help can be asked for, on the program or on a command that is named.
-/
namespace SpaceLink

structure OptionForm where
  name : String
  /-- The values that the option may have; a flag has no values to ask about. -/
  accepts : Option (String → Bool)

structure CommandForm where
  name : String
  options : List OptionForm
  words : Nat

structure Grammar where
  /-- The options of the program, which may stand anywhere. -/
  options : List OptionForm
  commands : List CommandForm

inductive Stop where
  | malformed
  | help
  | version
  deriving DecidableEq

structure Arguments where
  command : String
  /-- The options of the command and behind them those of the program. -/
  options : List (String × String)
  words : List String

namespace Arguments

/-- The value of an option; a flag that is set has the empty value. -/
def get? (a : Arguments) (name : String) : Option String := a.options.lookup name

def isSet (a : Arguments) (name : String) : Bool := (a.get? name).isSome

structure Reading where
  outer : List (String × String) := []
  command : Option CommandForm := none
  inner : List (String × String) := []
  words : List String := []
  /-- An option that waits for its value. -/
  pending : Option OptionForm := none
  wordsOnly : Bool := false
  /-- What help is asked for on, once it is asked for by a word. -/
  topics : Option (List String) := none

namespace Reading

def helpWord : String := "help"

def addOption (r : Reading) (name value : String) : Except Stop Reading :=
  match r.command with
  | none =>
    if (r.outer.lookup name).isSome then .error .malformed
    else .ok { r with outer := r.outer ++ [(name, value)], pending := none }
  | some _ =>
    if (r.inner.lookup name).isSome then .error .malformed
    else .ok { r with inner := r.inner ++ [(name, value)], pending := none }

def addValue (r : Reading) (option : OptionForm) (value : String) : Except Stop Reading :=
  match option.accepts with
  | some accepts =>
    if accepts value then r.addOption option.name value else .error .malformed
  | none => .error .malformed

def longOption (g : Grammar) (r : Reading) (text : List Char) : Except Stop Reading :=
  let (name, value) := match Text.splitFirst? ['='] text with
    | some (name, value) => (String.ofList name, some (String.ofList value))
    | none => (String.ofList text, none)
  let options := g.options ++ (r.command.map CommandForm.options).getD []
  match options.find? (·.name == name), value with
  | some option, some value => r.addValue option value
  | some option, none =>
    if option.accepts.isSome then .ok { r with pending := some option }
    else r.addOption name ""
  | none, some _ => .error .malformed
  | none, none =>
    .error (if name = "help" then .help
      else if name = "version" ∧ r.command.isNone then .version else .malformed)

def shortOption (r : Reading) (letter : Char) : Stop :=
  if letter = 'h' then .help else if letter = 'V' ∧ r.command.isNone then .version else .malformed

/-- The first word is the command, and the others belong to it. -/
def addWord (g : Grammar) (r : Reading) (word : String) : Except Stop Reading :=
  match r.command with
  | some command =>
    if r.words.length < command.words then .ok { r with words := r.words ++ [word] }
    else .error .malformed
  | none =>
    if r.wordsOnly then .error .malformed
    else if word = helpWord then .ok { r with topics := some [] }
    else match g.commands.find? (·.name == word) with
      | some command => .ok { r with command := some command }
      | none => .error .malformed

/-- Reads one argument. A hyphen alone is a word. -/
def step (g : Grammar) (r : Reading) (text : String) : Except Stop Reading :=
  match r.topics with
  | some topics => .ok { r with topics := some (topics ++ [text]) }
  | none =>
    if r.wordsOnly then r.addWord g text
    else match r.pending, text.toList with
      | some _, '-' :: _ :: _ => .error .malformed
      | some option, _ => r.addValue option text
      | none, ['-', '-'] => .ok { r with wordsOnly := true }
      | none, '-' :: '-' :: body => r.longOption g body
      | none, '-' :: letter :: _ => .error (r.shortOption letter)
      | none, _ => r.addWord g text

/-- There is help on the program, on each of its commands, and on help. -/
def helpOn (g : Grammar) : List String → Stop
  | [] => .help
  | [name] => if (helpWord :: g.commands.map CommandForm.name).contains name then .help else .malformed
  | _ => .malformed

/-- The command is there, with all its words, and no option waits. -/
def finish (g : Grammar) (r : Reading) : Except Stop Arguments :=
  match r.topics, r.command, r.pending with
  | some topics, _, _ => .error (helpOn g topics)
  | none, some command, none =>
    if r.words.length = command.words then .ok ⟨command.name, r.inner ++ r.outer, r.words⟩
    else .error .malformed
  | none, _, _ => .error .malformed

end Reading

def read (g : Grammar) (args : List String) : Except Stop Arguments := do
  (← args.foldlM (Reading.step g) {}).finish g

end Arguments
end SpaceLink

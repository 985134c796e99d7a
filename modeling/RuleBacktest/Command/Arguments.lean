import RuleBacktest.Command.Basic

/-!
# Arguments

A command line is read word by word, one level of commands after the other.  A
level takes options, operands and the name of a command, which opens the next
level.  An option is given by its letter or its name, and its value stands
behind it, in the same word or in the next one.  Letters can be put together in
one word, and behind two dashes there are only operands.

The first fault met ends the reading, and so does the wish for help.  The value
of an option is judged when the next option or operand of its level comes up,
and at the latest when the levels below have been read.
-/

namespace RuleBacktest

/-- Why a command line names no command: it asks for help, or it is wrong. -/
inductive UsageFault where
  | help
  | wrong
  deriving DecidableEq, Repr

def UsageFault.exitCode : UsageFault → Nat
  | help => 0
  | wrong => 2

inductive OptionKind where
  /-- Takes no value. -/
  | flag
  /-- Takes a value that is not empty. -/
  | path
  /-- Takes any value. -/
  | word
  deriving DecidableEq, Repr

structure CommandOption where
  name : String
  letter : Option Char
  kind : OptionKind
  deriving DecidableEq, Repr

/-- What a level takes. -/
structure CommandLevel where
  options : List CommandOption
  operands : Nat
  commands : List String

/-- What has been given at a level, with the option at hand and its value, if it
has come up. -/
structure GivenArguments where
  flags : List String := []
  values : List (String × String) := []
  pending : Option (CommandOption × Option String) := none
  operands : List String := []
  command : Option (String × List String) := none

namespace GivenArguments

def value? (g : GivenArguments) (name : String) : Option String :=
  (g.values.find? fun v => v.1 == name).map Prod.snd

def addFlag (g : GivenArguments) (o : CommandOption) :
    Except UsageFault GivenArguments :=
  if g.flags.contains o.name then .error .wrong
  else .ok { g with flags := o.name :: g.flags }

/-- A value is given once, and a path is not empty. -/
def addValue (g : GivenArguments) (o : CommandOption) (value : String) :
    Except UsageFault GivenArguments :=
  if (g.value? o.name).isSome then .error .wrong
  else if o.kind = .path ∧ value.isEmpty then .error .wrong
  else .ok { g with values := g.values ++ [(o.name, value)] }

/-- Judges the option at hand. -/
def settle (g : GivenArguments) : Except UsageFault GivenArguments :=
  match g.pending with
  | none => .ok g
  | some (_, none) => .error .wrong
  | some (o, some value) => { g with pending := none }.addValue o value

def addOperand (g : GivenArguments) (level : CommandLevel) (word : String) :
    Except UsageFault GivenArguments := do
  let g ← g.settle
  if g.operands.length < level.operands then
    .ok { g with operands := g.operands ++ [word] }
  else .error .wrong

/-- A flag, an option with its value, or an option whose value is still to
come. -/
def addOption (g : GivenArguments) (o : CommandOption) (value : Option String) :
    Except UsageFault GivenArguments := do
  let g ← g.settle
  match o.kind, value with
  | .flag, none => if o.name = "help" then .error .help else g.addFlag o
  | .flag, some _ => .error .wrong
  | _, some value => g.addValue o value
  | _, none => .ok { g with pending := some (o, none) }

end GivenArguments

namespace CommandLevel

def named? (level : CommandLevel) (name : String) : Option CommandOption :=
  level.options.find? fun o => o.name == name

def lettered? (level : CommandLevel) (letter : Char) : Option CommandOption :=
  level.options.find? fun o => o.letter == some letter

/-- A value in the word of its option, behind an equals sign or not. -/
def attached : List Char → Option String
  | [] => none
  | '=' :: cs => some (String.ofList cs)
  | cs => some (String.ofList cs)

def readLetters (level : CommandLevel) (g : GivenArguments) :
    List Char → Except UsageFault GivenArguments
  | [] => .ok g
  | c :: cs =>
      match level.lettered? c with
      | none => .error .wrong
      | some o =>
          if o.kind = .flag then do
            let g ← g.addOption o none
            level.readLetters g cs
          else g.addOption o (attached cs)

def readName (level : CommandLevel) (g : GivenArguments) (cs : List Char) :
    Except UsageFault GivenArguments :=
  match level.named? (String.ofList (cs.takeWhile (· ≠ '='))) with
  | none => .error .wrong
  | some o => g.addOption o (attached (cs.dropWhile (· ≠ '=')))

inductive WordShape where
  | name (rest : List Char)
  | letters (rest : List Char)
  | dashes
  | plain

def shape (word : String) : WordShape :=
  match word.toList with
  | ['-', '-'] => .dashes
  | '-' :: '-' :: rest => .name rest
  | ['-'] => .plain
  | '-' :: rest => .letters rest
  | _ => .plain

def readOperands (level : CommandLevel) (g : GivenArguments)
    (words : List String) : Except UsageFault GivenArguments :=
  words.foldlM (fun g word => g.addOperand level word) g

def read (level : CommandLevel) (g : GivenArguments) :
    List String → Except UsageFault GivenArguments
  | [] => .ok g
  | word :: words =>
      match g.pending, shape word with
      | some (o, none), .plain =>
          level.read { g with pending := some (o, some word) } words
      | some (_, none), _ => .error .wrong
      | _, form =>
          if level.commands.contains word then
            .ok { g with command := some (word, words) }
          else
            match form with
            | .dashes => level.readOperands g words
            | .name cs => do
                let g ← level.readName g cs
                level.read g words
            | .letters cs => do
                let g ← level.readLetters g cs
                level.read g words
            | .plain => do
                let g ← g.addOperand level word
                level.read g words

end CommandLevel

namespace Command

def verboseOption : CommandOption := ⟨"verbose", some 'v', .flag⟩
def helpOption : CommandOption := ⟨"help", some 'h', .flag⟩
def configOption : CommandOption := ⟨"config", some 'c', .path⟩
def requestOption : CommandOption := ⟨"request", some 'r', .path⟩
def outputOption : CommandOption := ⟨"output", some 'o', .path⟩
def nameOption : CommandOption := ⟨"name", none, .word⟩
def fileOption : CommandOption := ⟨"file", some 'f', .path⟩

/-- Every level can be asked for help and for more to be told. -/
def level (options : List CommandOption) (operands : Nat)
    (commands : List String) : CommandLevel :=
  ⟨verboseOption :: helpOption :: options, operands, commands⟩

def commandNames : List String :=
  ["backtest", "validate", "strategy", "run-saved", "help"]

def actionNames : List String :=
  ["save", "list", "show", "delete", "runs", "help"]

/-- Whether there is help on the command that words name, within given
commands. -/
def hasHelp : List String → Bool
  | [] => true
  | [name] => commandNames.contains name
  | ["strategy", name] => actionNames.contains name
  | _ => false

def helpOn (words : List String) : UsageFault :=
  if hasHelp words then .help else .wrong

def require (x : Option String) : Except UsageFault String :=
  match x with
  | some s => .ok s
  | none => .error .wrong

def readAll (l : CommandLevel) (words : List String) :
    Except UsageFault GivenArguments := do
  let g ← l.read {} words
  g.settle

def readId (words : List String) : Except UsageFault String := do
  let g ← readAll (level [] 1 []) words
  require g.operands.head?

def readAction (name : String) (words : List String) :
    Except UsageFault StrategyAction :=
  match name with
  | "save" => do
      let g ← readAll (level [nameOption, fileOption] 0 []) words
      .ok (.save (← require (g.value? "name")) (← require (g.value? "file")))
  | "list" => do
      let _ ← readAll (level [] 0 []) words
      .ok .list
  | "show" => do .ok (.show (← readId words))
  | "delete" => do .ok (.delete (← readId words))
  | "runs" => do .ok (.runs (← readId words))
  | _ => .error (helpOn ("strategy" :: words))

def readStrategy (words : List String) : Except UsageFault Command := do
  let g ← (level [configOption] 0 actionNames).read {} words
  match g.command with
  | none => .error .wrong
  | some (name, words) =>
      let action ← readAction name words
      let g ← g.settle
      .ok (.strategy (← require (g.value? "config")) action)

def readCommand (name : String) (words : List String) :
    Except UsageFault Command :=
  match name with
  | "backtest" => do
      let g ← readAll
        (level [configOption, requestOption, outputOption] 0 []) words
      .ok (.backtest (← require (g.value? "config"))
          (← require (g.value? "request")) (g.value? "output"))
  | "validate" => do
      let g ← readAll (level [requestOption] 0 []) words
      .ok (.validate (← require (g.value? "request")))
  | "strategy" => readStrategy words
  | "run-saved" => do
      let g ← readAll (level [configOption] 0 []) words
      .ok (.runSaved (← require (g.value? "config")))
  | _ => .error (helpOn words)

/-- The command that the words of a command line ask for. -/
def ofWords (words : List String) : Except UsageFault Command := do
  let g ← (level [] 0 commandNames).read {} words
  match g.command with
  | none => .error .wrong
  | some (name, words) => readCommand name words

end Command
end RuleBacktest

/-!
# The command line

The words of a command line are an action, a function and the arguments for it. `CommandLine.parse`
takes them apart. There is one option, for help. Options are looked for until the first argument is
met; from there on every word is taken as it is. Two dashes end the options before that.

A word that begins with a dash and is no option is refused as an action or a function, but is taken
as an argument.
-/

namespace LedgerGateway

structure CommandLine where
  action : String
  function : String
  arguments : List String
deriving DecidableEq, Repr

/-- What keeps a command line from being taken apart. -/
inductive UsageFault where
  /-- There is no action, or no function. -/
  | missingRequiredArgument
  /-- A word looks like an option, but is none. -/
  | unknownArgument
  /-- The option for help is given a value. -/
  | tooManyValues
  /-- Help is asked for. -/
  | displayHelp
deriving DecidableEq, Repr

namespace UsageFault

def name : UsageFault → String
  | missingRequiredArgument => "MissingRequiredArgument"
  | unknownArgument => "UnknownArgument"
  | tooManyValues => "TooManyValues"
  | displayHelp => "DisplayHelp"

/-- What the program ends with. To ask for help is no fault. -/
def exitCode : UsageFault → Nat
  | displayHelp => 0
  | _ => 2

end UsageFault

namespace CommandLine

/-- What the next word will be, and what the words before it were. -/
inductive Slot where
  | action
  | function (action : String)
  | argument (action function : String)
deriving DecidableEq, Repr

def Slot.takesArgument : Slot → Bool
  | argument _ _ => true
  | _ => false

/-- What a word that begins with two dashes asks for, without them. Nothing means that it is taken
as it is. -/
def longOption (slot : Slot) (rest : List Char) : Option UsageFault :=
  if rest.takeWhile (· != '=') = "help".toList then
    some (if rest.contains '=' then .tooManyValues else .displayHelp)
  else if slot.takesArgument then none
  else some .unknownArgument

/-- What a word that begins with one dash asks for, without it. -/
def shortOptions (slot : Slot) (letters : List Char) : Option UsageFault :=
  if slot.takesArgument && letters.any (· != 'h') then none
  else
    match letters with
    | [] => none
    | letter :: _ => some (if letter = 'h' then .displayHelp else .unknownArgument)

def option (slot : Slot) (word : String) : Option UsageFault :=
  match word.toList with
  | '-' :: '-' :: rest => longOption slot rest
  | '-' :: letters => shortOptions slot letters
  | _ => none

/-- Takes the words that follow. With `literal`, no word is an option any more. -/
def parseFrom (literal : Bool) (slot : Slot) : List String → Except UsageFault CommandLine
  | [] =>
    match slot with
    | .argument action function => .ok ⟨action, function, []⟩
    | _ => .error .missingRequiredArgument
  | word :: rest =>
    if !literal && word == "--" then parseFrom true slot rest
    else
      match if literal then none else option slot word with
      | some fault => .error fault
      | none =>
        match slot with
        | .action => parseFrom literal (.function word) rest
        | .function action => parseFrom literal (.argument action word) rest
        | .argument action function => .ok ⟨action, function, word :: rest⟩

/-- Takes the words of a command line apart, without the name of the program. -/
def parse (words : List String) : Except UsageFault CommandLine :=
  parseFrom false .action words

end CommandLine

end LedgerGateway

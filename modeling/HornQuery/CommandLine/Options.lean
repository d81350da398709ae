import HornQuery.Text.Lines

namespace HornQuery.CommandLine

inductive UsageFault where
  | unknownOption (text : String)
  | missingValue (option : String)
  | unexpectedValue (option : String)
  | repeated (option : String)
  | unusableValue (option value : String)
  | unexpectedArgument (text : String)
  | missingArgument (name : String)
  | unknownCommand (name : String)
  | missingCommand
deriving DecidableEq, Inhabited, Repr

def UsageFault.message : UsageFault → String
  | .unknownOption text => s!"unexpected option `{text}`"
  | .missingValue option => s!"`--{option}` needs a value"
  | .unexpectedValue option => s!"`--{option}` takes no value"
  | .repeated option => s!"`--{option}` is given more than once"
  | .unusableValue option value => s!"`--{option}` cannot be `{value}`"
  | .unexpectedArgument text => s!"unexpected argument `{text}`"
  | .missingArgument name => s!"the {name} is missing"
  | .unknownCommand name => s!"unknown command `{name}`"
  | .missingCommand => "a command is missing"

structure OptionRule where
  name : String
  short? : Option Char
  takesValue : Bool
  /-- Whether the option may be given more than once. -/
  repeats : Bool
  accepts : String → Bool

structure Level where
  options : List OptionRule
  commands : List String

/-- What has been read of a level. Settings are options with their values; one that takes no
value is set to nothing. -/
structure Reading where
  settings : List (String × String)
  positionals : List String
  /-- The option that waits for its value. -/
  waiting? : Option OptionRule
  /-- Whether all further arguments are plain. -/
  plain : Bool
  command? : Option String
  rest : List String

namespace Reading

def empty : Reading := ⟨[], [], none, false, none, []⟩

def isSet (reading : Reading) (option : String) : Bool :=
  (reading.settings.lookup option).isSome

def value? (reading : Reading) (option : String) : Option String :=
  reading.settings.lookup option

def values (reading : Reading) (option : String) : List String :=
  (reading.settings.filter fun setting => setting.1 = option).map Prod.snd

def set (reading : Reading) (rule : OptionRule) (value : String) : Except UsageFault Reading :=
  if !rule.accepts value then .error (.unusableValue rule.name value)
  else if !rule.repeats && reading.isSet rule.name then .error (.repeated rule.name)
  else
    .ok { reading with
      settings := reading.settings ++ [(rule.name, value)]
      waiting? := none }

def option (reading : Reading) (rule : OptionRule) (attached? : Option String) :
    Except UsageFault Reading :=
  match rule.takesValue, attached? with
  | true, some value => reading.set rule value
  | true, none => .ok { reading with waiting? := some rule }
  | false, some _ => .error (.unexpectedValue rule.name)
  | false, none => reading.set rule ""

def attachedValue? : List Char → Option String
  | '=' :: value => some (String.ofList value)
  | _ => none

def long (level : Level) (reading : Reading) (text : List Char) : Except UsageFault Reading :=
  let name := String.ofList (text.takeWhile (· ≠ '='))
  match level.options.find? fun rule => rule.name = name with
  | some rule => reading.option rule (attachedValue? (text.dropWhile (· ≠ '=')))
  | none => .error (.unknownOption ("--" ++ name))

/-- A group of short options, without its dash. What follows one that takes a value is the
value. -/
def shorts (level : Level) (reading : Reading) : List Char → Except UsageFault Reading
  | [] => .ok reading
  | c :: rest =>
      match level.options.find? fun rule => rule.short? = some c with
      | none => .error (.unknownOption (String.ofList ['-', c]))
      | some rule =>
          if rule.takesValue then
            match attachedValue? rest with
            | some value => reading.option rule (some value)
            | none => reading.option rule (if rest.isEmpty then none else some (String.ofList rest))
          else
            match reading.option rule none with
            | .ok reading => shorts level reading rest
            | .error fault => .error fault

def argument (level : Level) (reading : Reading) (text : String) : Except UsageFault Reading :=
  if level.commands.isEmpty then
    .ok { reading with positionals := reading.positionals ++ [text] }
  else if reading.plain then .error (.unexpectedArgument text)
  else if level.commands.contains text then .ok { reading with command? := some text }
  else .error (.unknownCommand text)

def settled (reading : Reading) : Except UsageFault Reading :=
  match reading.waiting? with
  | some rule => .error (.missingValue rule.name)
  | none => .ok reading

def step (level : Level) (reading : Reading) (text : String) : Except UsageFault Reading :=
  if reading.command?.isSome then .ok { reading with rest := reading.rest ++ [text] }
  else if reading.plain then reading.argument level text
  else
    match text.toList, reading.waiting? with
    | ['-', '-'], none => .ok { reading with plain := true }
    | '-' :: '-' :: name, none => reading.long level name
    | '-' :: c :: group, none => reading.shorts level (c :: group)
    | '-' :: _ :: _, some rule => .error (.missingValue rule.name)
    | _, some rule => reading.set rule text
    | _, none => reading.argument level text

def ofArguments (level : Level) (args : List String) : Except UsageFault Reading := do
  let reading ← args.foldlM (step level) empty
  reading.settled

end Reading

end HornQuery.CommandLine

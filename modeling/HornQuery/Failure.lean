namespace HornQuery

/-- A text that is not a term. Positions count bytes from the start of the text. -/
inductive ReadError where
  | syntaxFault (reason : String) (position : Nat)
  | unexpectedEnd (position : Nat)
  | trailingInput (position : Nat)
deriving DecidableEq, Inhabited, Repr

inductive ConversionError where
  | noConverter (subject : String)
  | typeMismatch (expected found : String)
  | notCompound (term : String)
  | argumentIndex (index arity : Nat)
  | patternArity (expected actual : Nat)
  | unreadable (cause : ReadError)
deriving DecidableEq, Inhabited, Repr

inductive QueryError where
  | placeholderCount (expected actual : Nat)
  | unknownPlaceholder (name : String)
  | placeholderIndex (index count : Nat)
  | alreadyBound (name : String)
  | invalidFact (fact reason : String)
  | conversion (cause : ConversionError)
deriving DecidableEq, Inhabited, Repr

inductive EngineError where
  | noExecutable (engine : String)
  | cannotStart (command : String)
  | cannotWriteScript
  | exitStatus (command : String) (status : Int) (output : String)
  | reported (goal reason : String)
  | theoryUnreadable (path : String)
  | inProcess (reason : String)
deriving DecidableEq, Inhabited, Repr

inductive SolutionError where
  | unknownVariable (name : String)
  | noDefaultVariable
  | collectionCount (requested available : Nat)
  | conversion (cause : ConversionError)
deriving DecidableEq, Inhabited, Repr

inductive ConfigError where
  | noHome
  | unreadable (path : String)
  | malformed (path reason : String)
  | unwritable (path : String)
deriving DecidableEq, Inhabited, Repr

inductive Failure where
  | reading (cause : ReadError)
  | conversion (cause : ConversionError)
  | query (cause : QueryError)
  | engine (cause : EngineError)
  | solution (cause : SolutionError)
  | config (cause : ConfigError)
deriving DecidableEq, Inhabited, Repr

namespace ReadError

def message : ReadError → String
  | .syntaxFault reason position => s!"syntax error at byte {position}: {reason}"
  | .unexpectedEnd position => s!"unexpected end of input after byte {position}"
  | .trailingInput position => s!"unexpected text after the term at byte {position}"

def code : ReadError → String
  | .syntaxFault .. => "bridge::term::syntax"
  | .unexpectedEnd .. => "bridge::term::unexpected_end"
  | .trailingInput .. => "bridge::term::trailing_input"

def advice : ReadError → String
  | .syntaxFault .. =>
      "The text is not a valid term. Check for balanced brackets, closed quotes, and operators "
        ++ "written with their arguments."
  | .unexpectedEnd .. =>
      "The term stops in the middle. A closing bracket or quote is probably missing."
  | .trailingInput .. =>
      "Only a single term (optionally followed by `.`) can be read here."

end ReadError

namespace ConversionError

def message : ConversionError → String
  | .noConverter subject => s!"no suitable converter found for {subject}"
  | .typeMismatch expected found => s!"cannot read {found} as {expected}"
  | .notCompound term => s!"{term} is not a compound term"
  | .argumentIndex index arity => s!"argument index {index} out of range for arity {arity}"
  | .patternArity expected actual =>
      s!"pattern has {expected} placeholder(s) but {actual} argument(s) were given"
  | .unreadable cause => cause.message

def code : ConversionError → String
  | .noConverter .. => "bridge::convert::no_converter"
  | .typeMismatch .. => "bridge::convert::type_mismatch"
  | .notCompound .. => "bridge::convert::not_compound"
  | .argumentIndex .. => "bridge::convert::arg_index"
  | .patternArity .. => "bridge::convert::pattern_arity"
  | .unreadable cause => cause.code

def advice : ConversionError → String
  | .noConverter .. =>
      "No registered converter accepted this value after the full exact-type, supertype and "
        ++ "interface walk. Register one with `register_object_converter` or "
        ++ "`register_term_converter`."
  | .typeMismatch .. =>
      "Request the value with a type that matches the bound term, or use `Value`."
  | .notCompound .. =>
      "Functor, arity and argument accessors only apply to atoms and compound terms."
  | .argumentIndex .. => "Argument indices start at zero."
  | .patternArity .. =>
      "Pass exactly one argument per `?` placeholder in the term pattern."
  | .unreadable cause => cause.advice

end ConversionError

namespace QueryError

def message : QueryError → String
  | .placeholderCount expected actual =>
      s!"goal expects {expected} more argument(s) but {actual} were given"
  | .unknownPlaceholder name => s!"unknown placeholder: {name}"
  | .placeholderIndex index count =>
      s!"placeholder index {index} out of range ({count} placeholder(s))"
  | .alreadyBound name => s!"placeholder {name} is already bound"
  | .invalidFact fact reason => s!"invalid fact `{fact}`: {reason}"
  | .conversion cause => cause.message

def code : QueryError → String
  | .placeholderCount .. => "bridge::query::placeholder_count"
  | .unknownPlaceholder .. => "bridge::query::unknown_placeholder"
  | .placeholderIndex .. => "bridge::query::placeholder_index"
  | .alreadyBound .. => "bridge::query::already_bound"
  | .invalidFact .. => "bridge::query::invalid_fact"
  | .conversion cause => cause.code

def advice : QueryError → String
  | .placeholderCount .. =>
      "The number of arguments passed to `solve` plus the placeholders already bound with "
        ++ "`bind` must equal the placeholders in the pattern."
  | .unknownPlaceholder .. =>
      "Named placeholders are written `?Name` in the goal pattern."
  | .placeholderIndex .. =>
      "Placeholder indices follow their first occurrence in the pattern, starting at zero."
  | .alreadyBound .. =>
      "Create a fresh query from the pattern to bind a different value."
  | .invalidFact .. =>
      "Asserted facts must be atoms or compound terms, e.g. `parent(tom, bob).`"
  | .conversion cause => cause.advice

end QueryError

namespace EngineError

def message : EngineError → String
  | .noExecutable engine => s!"no usable {engine} executable found"
  | .cannotStart command => s!"failed to start `{command}`"
  | .cannotWriteScript => "failed to write engine script"
  | .exitStatus command status _ => s!"`{command}` exited with status {status}"
  | .reported goal reason => s!"engine reported an error for goal `{goal}`: {reason}"
  | .theoryUnreadable path => s!"failed to read theory file: {path}"
  | .inProcess reason => s!"in-process engine failed: {reason}"

def code : EngineError → String
  | .noExecutable .. => "bridge::engine::prover_creation"
  | .cannotStart .. => "bridge::engine::spawn"
  | .cannotWriteScript => "bridge::engine::script"
  | .exitStatus .. => "bridge::engine::exit_status"
  | .reported .. => "bridge::engine::reported"
  | .theoryUnreadable .. => "bridge::engine::theory_read"
  | .inProcess .. => "bridge::engine::in_process"

def advice? : EngineError → Option String
  | .noExecutable .. =>
      some ("Install the engine and make sure it is on PATH, or set `executable` in the "
        ++ "prover-bridge config file.")
  | .cannotStart .. =>
      some "Check that the executable exists and is runnable by the current user."
  | .cannotWriteScript =>
      some "Check that the temporary directory exists and is writable."
  | .exitStatus _ _ output =>
      some ("The engine could not produce a result. Its captured output follows:\n" ++ output)
  | .reported .. =>
      some ("The engine rejected the goal or the knowledge base. Fix the reported problem and "
        ++ "retry.")
  | .theoryUnreadable .. =>
      some "Ensure the theory file exists and is readable UTF-8 text."
  | .inProcess .. => none

end EngineError

namespace SolutionError

def message : SolutionError → String
  | .unknownVariable name => s!"unknown variable: {name}"
  | .noDefaultVariable => "no default variable selected"
  | .collectionCount requested available =>
      s!"{requested} collection(s) requested but the goal has {available} variable(s)"
  | .conversion cause => cause.message

def code : SolutionError → String
  | .unknownVariable .. => "bridge::solution::unknown_variable"
  | .noDefaultVariable => "bridge::solution::no_default_variable"
  | .collectionCount .. => "bridge::solution::collection_count"
  | .conversion cause => cause.code

def advice : SolutionError → String
  | .unknownVariable .. =>
      "The variable is not bound in the current row. Only free variables of the goal are "
        ++ "reported, and failed solutions have no rows."
  | .noDefaultVariable =>
      "The goal had no free variables. Select one with `on(name)` or read by name."
  | .collectionCount .. =>
      "Pass at most one destination collection per free variable."
  | .conversion cause => cause.advice

end SolutionError

namespace ConfigError

def message : ConfigError → String
  | .noHome => "cannot determine home directory"
  | .unreadable path => s!"failed to read config: {path}"
  | .malformed path _ => s!"failed to parse config: {path}"
  | .unwritable path => s!"failed to write config: {path}"

def code : ConfigError → String
  | .noHome => "bridge::config::no_home"
  | .unreadable .. => "bridge::config::read"
  | .malformed .. => "bridge::config::parse"
  | .unwritable .. => "bridge::config::write"

def advice : ConfigError → String
  | .noHome => "Set the HOME environment variable or pass an explicit config path."
  | .unreadable .. => "Ensure the config file exists and is valid TOML."
  | .malformed _ reason => "Check the TOML syntax in the config file: " ++ reason
  | .unwritable .. => "Ensure you have write permissions to the config directory."

end ConfigError

namespace Failure

def message : Failure → String
  | .reading cause => cause.message
  | .conversion cause => cause.message
  | .query cause => cause.message
  | .engine cause => cause.message
  | .solution cause => cause.message
  | .config cause => cause.message

def code : Failure → String
  | .reading cause => cause.code
  | .conversion cause => cause.code
  | .query cause => cause.code
  | .engine cause => cause.code
  | .solution cause => cause.code
  | .config cause => cause.code

def advice? : Failure → Option String
  | .reading cause => some cause.advice
  | .conversion cause => some cause.advice
  | .query cause => some cause.advice
  | .engine cause => cause.advice?
  | .solution cause => some cause.advice
  | .config cause => some cause.advice

end Failure

end HornQuery

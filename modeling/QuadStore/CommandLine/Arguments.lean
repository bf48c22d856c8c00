import QuadStore.Grammar.Query
import QuadStore.Iri.Absolute

/-!
# Command lines

What a command line asks for.  Options stand anywhere among the words of the command they belong
to; a long option gives its value after an equals sign or in the next argument, a short one directly
or after an equals sign or in the next argument.  After two hyphens alone every argument is a word.

An argument that begins with a hyphen is never taken as a value or a word, except a hyphen alone.

## Main definitions

* `OptionSpec`, `ParsedArguments`, `parseArguments`: options and words in general.
* `Command`, `Invocation`, `Invocation.parse`: the commands of the program.
* `RequestError`: what can be wrong with an argument of a command, and why.
* `graphOf`, `patternOf`, `queryOf`, `constraintOf`: what the arguments stand for.
-/

namespace QuadStore.CommandLine

/-! ## Options in general -/

/-- An option: its names, and whether it has a value. -/
structure OptionSpec where
  long : String
  short : Option Char
  hasValue : Bool
  deriving DecidableEq, Repr

/-- Why a command line is not carried out. -/
inductive Refusal where
  /-- It asks for help or for the version. -/
  | help
  /-- It is no command line of the program. -/
  | usage
  deriving DecidableEq, Repr

/-- The options with their values, and the words, in order. -/
structure ParsedArguments where
  options : List (String × String)
  words : List String
  deriving DecidableEq, Repr

namespace ParsedArguments

/-- Nothing was given. -/
def empty : ParsedArguments := ⟨[], []⟩

/-- One more option before the others. -/
def withOption (parsed : ParsedArguments) (name value : String) : ParsedArguments :=
  { parsed with options := (name, value) :: parsed.options }

/-- One more word before the others. -/
def withWord (parsed : ParsedArguments) (word : String) : ParsedArguments :=
  { parsed with words := word :: parsed.words }

/-- All values of an option. -/
def values (parsed : ParsedArguments) (name : String) : List String :=
  (parsed.options.filter (·.1 = name)).map Prod.snd

/-- The value of an option that may be given once. -/
def single (parsed : ParsedArguments) (name : String) : Except Refusal (Option String) :=
  match parsed.values name with
  | [] => .ok none
  | [value] => .ok (some value)
  | _ => .error .usage

end ParsedArguments

/-- What an argument is. -/
inductive Argument where
  /-- A word or a value. -/
  | word
  /-- Two hyphens alone. -/
  | wordsOnly
  /-- A long option, with a value if it has an equals sign. -/
  | long (name : String) (value : Option String)
  /-- Short options without their hyphen. -/
  | short (letters : List Char)
  deriving DecidableEq, Repr

/-- What an argument is. -/
def Argument.ofString (text : String) : Argument :=
  match text.toList with
  | ['-', '-'] => .wordsOnly
  | '-' :: '-' :: rest =>
    let name := rest.takeWhile (· != '=')
    match rest.dropWhile (· != '=') with
    | _ :: value => .long (String.ofList name) (some (String.ofList value))
    | [] => .long (String.ofList name) none
  | ['-'] => .word
  | '-' :: letters => .short letters
  | _ => .word

/-- What is left of short options after a value was taken from them: a following equals sign does
not belong to the value. -/
def attachedValue : List Char → Option String
  | [] => none
  | '=' :: value => some (String.ofList value)
  | value => some (String.ofList value)

/-- The first of some short options. -/
def shortOption (specs : List OptionSpec) (letter : Char) (versioned : Bool) :
    Except Refusal OptionSpec :=
  match specs.find? (·.short = some letter) with
  | some spec => .ok spec
  | none => .error (if letter = 'h' || (versioned && letter = 'V') then .help else .usage)

/-- A long option. -/
def longOption (specs : List OptionSpec) (name : String) (versioned : Bool) :
    Except Refusal OptionSpec :=
  match specs.find? (·.long = name) with
  | some spec => .ok spec
  | none => .error (if name = "help" || (versioned && name = "version") then .help else .usage)

/-- The short options of one argument: flags, and at the end possibly an option with a value, which
needs the next argument if it has no value attached. -/
def shortOptions (specs : List OptionSpec) (versioned : Bool) :
    List Char → Except Refusal (List (String × String) × Option String)
  | [] => .ok ([], none)
  | letter :: rest => do
    let spec ← shortOption specs letter versioned
    if spec.hasValue then
      match attachedValue rest with
      | some value => return ([(spec.long, value)], none)
      | none => return ([], some spec.long)
    else if rest.head? = some '=' then throw .usage
    else
      let (options, waiting) ← shortOptions specs versioned rest
      return ((spec.long, "") :: options, waiting)

/-- Reads arguments up to a word that ends them (`stop`), with what is left from that word on. -/
def parseArguments (specs : List OptionSpec) (versioned : Bool) (stop : String → Bool) :
    List String → Except Refusal (ParsedArguments × List String)
  | [] => .ok (.empty, [])
  | text :: rest =>
    match Argument.ofString text with
    | .word =>
      if stop text then .ok (.empty, text :: rest)
      else do
        let (parsed, left) ← parseArguments specs versioned stop rest
        return (parsed.withWord text, left)
    | .wordsOnly => .ok (⟨[], rest⟩, [])
    | .long name value => do
      let spec ← longOption specs name versioned
      match spec.hasValue, value, rest with
      | true, some value, rest =>
        let (parsed, left) ← parseArguments specs versioned stop rest
        return (parsed.withOption spec.long value, left)
      | true, none, value :: rest =>
        if Argument.ofString value = .word then
          let (parsed, left) ← parseArguments specs versioned stop rest
          return (parsed.withOption spec.long value, left)
        else throw .usage
      | true, none, [] => throw .usage
      | false, none, rest =>
        let (parsed, left) ← parseArguments specs versioned stop rest
        return (parsed.withOption spec.long "", left)
      | false, some _, _ => throw .usage
    | .short letters => do
      let (options, waiting) ← shortOptions specs versioned letters
      match waiting, rest with
      | none, rest =>
        let (parsed, left) ← parseArguments specs versioned stop rest
        return ({ parsed with options := options ++ parsed.options }, left)
      | some name, value :: rest =>
        if Argument.ofString value = .word then
          let (parsed, left) ← parseArguments specs versioned stop rest
          return ({ parsed with options := options ++ (name, value) :: parsed.options }, left)
        else throw .usage
      | some _, [] => throw .usage

/-! ## The commands -/

/-- What a command line asks for. -/
inductive Command where
  /-- Add the statements of files. -/
  | load (files : List String) (graph : Option String)
  /-- Print the statements that match a pattern. -/
  | find (pattern : String) (graph : Option String)
  /-- Print the rows of a query. -/
  | query (bgp : String) (graph : Option String) (constraints : List String)
  /-- Print the named graphs. -/
  | graphs
  /-- Print the number of statements, of all or of those that match a pattern. -/
  | count (pattern : Option String) (graph : Option String)
  /-- Delete a graph. -/
  | clear (graph : Option String)
  /-- Delete all graphs. -/
  | clearAll
  /-- Print what the store holds and did. -/
  | stats
  deriving DecidableEq, Repr

/-- A command with the index it is for and the configuration. -/
structure Invocation where
  index : String
  config : Option String
  command : Command
  deriving DecidableEq, Repr

/-- The options before the command. -/
def mainOptions : List OptionSpec := [⟨"index", some 'i', true⟩, ⟨"config", some 'c', true⟩]

/-- The option for the graph. -/
def graphOption : OptionSpec := ⟨"graph", some 'g', true⟩

/-- The names of the commands, each with its options. -/
def commandOptions : List (String × List OptionSpec) :=
  [("load", [graphOption]), ("find", [graphOption]),
    ("query", [graphOption, ⟨"where", some 'w', true⟩]), ("graphs", []), ("count", [graphOption]),
    ("clear", [graphOption, ⟨"all", none, false⟩]), ("stats", []), ("help", [])]

/-- A path must not be empty. -/
def checkPath (path : String) : Except Refusal String :=
  if path.isEmpty then .error .usage else .ok path

/-- The command with a name, from its options and words. -/
def Command.ofArguments (name : String) (parsed : ParsedArguments) : Except Refusal Command := do
  let graph ← parsed.single "graph"
  match name, parsed.words with
  | "load", files => return .load (← files.mapM checkPath) graph
  | "find", [pattern] => return .find pattern graph
  | "query", [bgp] => return .query bgp graph (parsed.values "where")
  | "graphs", [] => return .graphs
  | "count", [] => return .count none graph
  | "count", [pattern] => return .count (some pattern) graph
  | "clear", [] =>
    match ← parsed.single "all", graph with
    | none, graph => return .clear graph
    | some _, none => return .clearAll
    | some _, some _ => throw .usage
  | "stats", [] => return .stats
  | _, _ => throw .usage

/-- What a command line asks for. -/
def Invocation.parse (arguments : List String) : Except Refusal Invocation := do
  let isCommand (word : String) : Bool := (commandOptions.lookup word).isSome
  let (before, rest) ← parseArguments mainOptions true isCommand arguments
  match before.words, rest with
  | [], name :: rest =>
    let options := (commandOptions.lookup name).getD []
    if name = "help" then throw (if rest.all isCommand then .help else .usage)
    else
      let (parsed, _) ← parseArguments options false (fun _ => false) rest
      let index ← before.single "index"
      let config ← before.single "config"
      return ⟨← checkPath (index.getD "./index"), ← config.mapM checkPath,
        ← Command.ofArguments name parsed⟩
  | _, _ => throw .usage

/-! ## The arguments of commands

How the texts given to a command become graphs, patterns and constraints.  A graph may be given in
its written form or as a bare IRI, which then has to be an absolute one.  A pattern is a query of
one pattern, and a constraint is a variable, the sign of a comparison, and a term.
-/

/-- What can be wrong with an argument. -/
inductive RequestError where
  | graph (text : String) (cause : TermError)
  | graphIri (text : String)
  | pattern (text : String) (cause : ParseError)
  /-- Not one pattern but another number. -/
  | patternCount (count : Nat)
  | query (text : String) (cause : ParseError)
  /-- No sign of a comparison. -/
  | constraint (text : String)
  | name (name : String)
  | value (text : String) (cause : ParseError)
  deriving DecidableEq, Repr

/-- The wording of a fault. -/
def RequestError.message : RequestError → String
  | graph text _ => "Invalid graph '" ++ text ++ "'"
  | graphIri text => "Invalid graph IRI '" ++ text ++ "'"
  | pattern text _ => "Invalid pattern '" ++ text ++ "'"
  | patternCount count => "Expected exactly one triple pattern, found " ++ toString count
  | query text _ => "Invalid BGP '" ++ text ++ "'"
  | constraint text =>
    "Constraint '" ++ text ++ "' is not of the form name=value, name<value, name>=value ..."
  | name text => "Invalid variable '" ++ text ++ "'"
  | value text _ => "Invalid constraint value '" ++ text ++ "'"

/-- Whether a graph is given in its written form. -/
def isWritten : List Char → Bool
  | '<' :: _ => true
  | '_' :: ':' :: _ => true
  | _ => false

/-- The graph that an argument names; without one it is the default graph. -/
def graphOf : Option String → Except RequestError GraphName
  | none => .ok .default
  | some text =>
    if isWritten text.toList then (GraphName.decode text).mapError (.graph text)
    else if Iri.isAbsolute text.toList then .ok (.named (.iri ⟨text⟩))
    else .error (.graphIri text)

/-- The patterns of a query. -/
def queryOf (text : String) : Except RequestError (List TriplePattern) :=
  (parseQuery text.toList).mapError (.query text)

/-- The one pattern that an argument is. -/
def patternOf (text : String) : Except RequestError TriplePattern :=
  match parseQuery text.toList with
  | .error cause => .error (.pattern text cause)
  | .ok [pattern] => .ok pattern
  | .ok patterns => .error (.patternCount patterns.length)

/-- Whether a character marks a variable. -/
def isSigil (c : Char) : Bool := c == '?' || c == '$'

/-- The constraint that an argument is. -/
def constraintOf (text : String) : Except RequestError Constraint :=
  match Comparison.split text.toList with
  | none => .error (.constraint text)
  | some (name, comparison, value) =>
    let name := (Text.trim name).dropWhile isSigil
    if Grammar.isVariableName name then
      match parseTerm value with
      | .ok term => .ok ⟨⟨String.ofList name⟩, comparison, term⟩
      | .error cause => .error (.value (String.ofList value) cause)
    else .error (.name (String.ofList name))

end QuadStore.CommandLine

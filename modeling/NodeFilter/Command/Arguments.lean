/-!
Command lines. Options may stand before or after the argument of a command, short
ones may be run together, and after `--` everything is an argument. Words are read
from the left, and the first one that has no meaning where it stands decides.
-/

namespace NodeFilter

inductive Command where
  | check (filter : String) (input : Option String) (pretty syntaxOnly : Bool)
  | tokens (filter : String)
  | tree (filter : String)
  | overview
  | manual (category : String)
  deriving DecidableEq

structure Invocation where
  command : Command
  verbosity : Nat
  deriving DecidableEq

inductive Request where
  | invoke (invocation : Invocation)
  | version
  | help
  | misuse
  deriving DecidableEq

namespace Arguments

inductive Verb where
  | check
  | tokens
  | tree
  | overview
  | manual
  deriving DecidableEq

def Verb.ofName? : String → Option Verb
  | "check" => some .check
  | "tokens" => some .tokens
  | "ast" => some .tree
  | "docs" => some .overview
  | "doc" => some .manual
  | _ => none

def Verb.takesArgument : Verb → Bool
  | .overview => false
  | _ => true

structure Gathered where
  argument : Option String
  input : Option String
  pretty : Bool
  syntaxOnly : Bool
  verbosity : Nat

inductive Flag where
  | verbose
  | pretty
  | syntaxOnly

def Gathered.raise (gathered : Gathered) : Flag → Option Gathered
  -- A switch is set once; verbosity grows each time.
  | .verbose => some { gathered with verbosity := gathered.verbosity + 1 }
  | .pretty => if gathered.pretty then none else some { gathered with pretty := true }
  | .syntaxOnly => if gathered.syntaxOnly then none else some { gathered with syntaxOnly := true }

def Gathered.setInput (gathered : Gathered) (input : String) : Option Gathered :=
  if gathered.input.isSome then none else some { gathered with input := some input }

def Gathered.addArgument (verb : Verb) (gathered : Gathered) (word : String) : Option Gathered :=
  if verb.takesArgument && gathered.argument.isNone then
    some { gathered with argument := some word }
  else none

/-- What a word is, seen by itself. A lone hyphen is an argument. -/
inductive Word where
  | separator
  | long (name : List Char) (value : Option (List Char))
  | short (letters : List Char)
  | argument

def Word.ofLong (text : List Char) : Word :=
  match text.dropWhile (· != '=') with
  | [] => .long text none
  | _ :: value => .long (text.takeWhile (· != '=')) (some value)

def Word.of (text : List Char) : Word :=
  match text with
  | ['-', '-'] => .separator
  | '-' :: '-' :: rest => .ofLong rest
  | '-' :: first :: rest => .short (first :: rest)
  | _ => .argument

def isValue (word : String) : Bool :=
  match Word.of word.toList with
  | .argument => true
  | _ => false

inductive Step where
  | go (gathered : Gathered)
  /-- The next word is the input. -/
  | awaitInput (gathered : Gathered)
  | help
  | misuse

def Step.ofOption : Option Gathered → Step
  | some gathered => .go gathered
  | none => .misuse

def longFlag? (verb : Verb) (name : List Char) : Option Flag :=
  if name = "verbose".toList then some .verbose
  else if verb = .check && name = "pretty".toList then some .pretty
  else if verb = .check && name = "syntax-only".toList then some .syntaxOnly
  else none

def longStep (verb : Verb) (gathered : Gathered) (name : List Char) (value : Option (List Char)) :
    Step :=
  if verb = .check && name = "input".toList then
    match value with
    | some input => .ofOption (gathered.setInput (String.ofList input))
    | none => .awaitInput gathered
  else
    match value, longFlag? verb name with
    | none, some flag => .ofOption (gathered.raise flag)
    | none, none => if name = "help".toList then .help else .misuse
    | some _, _ => .misuse

def shortStep (verb : Verb) (gathered : Gathered) : List Char → Step
  -- Letters run together. What follows an `i` in the same word is the input, after an equals
  -- sign if there is one.
  | [] => .go gathered
  | 'v' :: rest => shortStep verb { gathered with verbosity := gathered.verbosity + 1 } rest
  | 'h' :: _ => .help
  | 'p' :: rest =>
      if verb = .check then
        match gathered.raise .pretty with
        | some gathered => shortStep verb gathered rest
        | none => .misuse
      else .misuse
  | 'i' :: rest =>
      if verb = .check then
        match rest with
        | [] => .awaitInput gathered
        | '=' :: input => .ofOption (gathered.setInput (String.ofList input))
        | input => .ofOption (gathered.setInput (String.ofList input))
      else .misuse
  | _ :: _ => .misuse

def finish (verb : Verb) (gathered : Gathered) : Request :=
  match verb, gathered.argument with
  | .check, some filter =>
      .invoke ⟨.check filter gathered.input gathered.pretty gathered.syntaxOnly, gathered.verbosity⟩
  | .tokens, some filter => .invoke ⟨.tokens filter, gathered.verbosity⟩
  | .tree, some filter => .invoke ⟨.tree filter, gathered.verbosity⟩
  | .overview, none => .invoke ⟨.overview, gathered.verbosity⟩
  | .manual, some category => .invoke ⟨.manual category, gathered.verbosity⟩
  | _, _ => .misuse

def gatherArguments (verb : Verb) (gathered : Gathered) : List String → Request
  | [] => finish verb gathered
  | word :: rest =>
      match gathered.addArgument verb word with
      | some gathered => gatherArguments verb gathered rest
      | none => .misuse

def gather (verb : Verb) (gathered : Gathered) : List String → Request
  | [] => finish verb gathered
  | word :: rest =>
      let step := match Word.of word.toList with
        | .separator => none
        | .long name value => some (longStep verb gathered name value)
        | .short letters => some (shortStep verb gathered letters)
        | .argument => some (.ofOption (gathered.addArgument verb word))
      match step with
      | none => gatherArguments verb gathered rest
      | some (.go gathered) => gather verb gathered rest
      | some (.awaitInput gathered) =>
          match rest with
          | [] => .misuse
          | input :: rest =>
              if isValue input then
                match gathered.setInput input with
                | some gathered => gather verb gathered rest
                | none => .misuse
              else .misuse
      | some .help => .help
      | some .misuse => .misuse

def leadingLetters (verbosity : Nat) : List Char → Except Request Nat
  | [] => .ok verbosity
  | 'v' :: rest => leadingLetters (verbosity + 1) rest
  | 'V' :: _ => .error .version
  | 'h' :: _ => .error .help
  | _ :: _ => .error .misuse

def leadingLong (verbosity : Nat) (name : List Char) : Except Request Nat :=
  if name = "verbose".toList then .ok (verbosity + 1)
  else if name = "version".toList then .error .version
  else if name = "help".toList then .error .help
  else .error .misuse

def helpOn : List String → Request
  -- What follows the word `help` names one command, itself among them, or nothing. A command has
  -- no others under it, and no word here is an option.
  | [] => .help
  | [name] => if (Verb.ofName? name).isSome || name = "help" then .help else .misuse
  | _ => .misuse

def readFrom (verbosity : Nat) : List String → Request
  | [] => .misuse
  | word :: rest =>
      match Word.of word.toList with
      | .long name none =>
          match leadingLong verbosity name with
          | .ok verbosity => readFrom verbosity rest
          | .error request => request
      | .short letters =>
          match leadingLetters verbosity letters with
          | .ok verbosity => readFrom verbosity rest
          | .error request => request
      | .argument =>
          match Verb.ofName? word with
          | some verb => gather verb ⟨none, none, false, false, verbosity⟩ rest
          | none => if word = "help" then helpOn rest else .misuse
      | .separator | .long _ (some _) => .misuse

def read (words : List String) : Request := readFrom 0 words

end Arguments

end NodeFilter

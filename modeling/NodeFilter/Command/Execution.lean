import NodeFilter.Check
import NodeFilter.Command.Arguments
import NodeFilter.Journal
import NodeFilter.Json.Printer
import NodeFilter.Manual

/-!
What a command line prints and how it ends, as a function of its words and of what
is piped in. A failing command prints nothing but its message.
-/

namespace NodeFilter

structure Exit where
  code : Nat
  output : String
  errors : String
  deriving DecidableEq

def showTokens (filter : String) : Except CommandError String :=
  match lex filter with
  | .error fault => .error (.filter (.lexing fault))
  | .ok tokens => .ok (Token.dumpLines tokens)

def showTree (filter : String) : Except CommandError String :=
  match parse filter with
  | .error fault => .error (.filter fault)
  | .ok expr => .ok expr.dump.spread

namespace Command

def readsInput : Command → Bool
  | .check _ none _ false => true
  | _ => false

def checkInput (given : Option String) (syntaxOnly : Bool) (piped : Option ByteArray) :
    Except CommandError (Option String) :=
  match given, syntaxOnly, piped with
  | none, false, some bytes =>
      match String.fromUTF8? bytes with
      | some text => .ok (some text)
      | none => .error .invalidUtf8
  | _, _, _ => .ok given

def showResult (pretty : Bool) : CheckResult → String
  | .syntaxValid => "Syntax is valid\n"
  | .found nodes =>
      let json := (CheckResult.found nodes).toJson
      (if pretty then json.pretty else json.compact) ++ "\n"

def output (piped : Option ByteArray) : Command → Except CommandError String
  | .check filter given pretty syntaxOnly =>
      match checkInput given syntaxOnly piped with
      | .error fault => .error fault
      | .ok input => (Check.mk filter input syntaxOnly).run.map (showResult pretty)
  | .tokens filter => (showTokens filter).map (· ++ "\n")
  | .tree filter => (showTree filter).map (· ++ "\n")
  | .overview => .ok Manual.overview
  | .manual category => Manual.lookup category

def journal (piped : Option ByteArray) : Command → List Journal.Entry
  | .check filter given _ syntaxOnly =>
      match checkInput given syntaxOnly piped with
      | .error _ => []
      | .ok input =>
          Journal.ofParse filter ++
            match (Check.mk filter input syntaxOnly).run with
            | .ok (.found nodes) => [⟨.info, s!"{nodes.length} matching nodes"⟩]
            | _ => []
  | .tokens filter => Journal.ofLex filter
  | .tree filter => Journal.ofParse filter
  | .overview | .manual _ => []

end Command

namespace Invocation

def shows (verbosity : Nat) : Journal.Level → Bool
  -- One degree of verbosity shows all of the journal but its traces, two show everything.
  | .trace => 2 ≤ verbosity
  | .debug | .info => 1 ≤ verbosity

def notes (invocation : Invocation) (piped : Option ByteArray) : String :=
  if invocation.verbosity = 0 then ""
  else
    String.join <| (invocation.command.journal piped).map fun entry =>
      if shows invocation.verbosity entry.level then s!"[{entry.level.name}] {entry.message}\n"
      else ""

def run (invocation : Invocation) (piped : Option ByteArray) : Exit :=
  let notes := invocation.notes piped
  match invocation.command.output piped with
  | .ok output => ⟨0, output, notes⟩
  | .error fault => ⟨1, "", notes ++ fault.message ++ "\n"⟩

end Invocation

def usage : String :=
  "Usage: sift [-v] <check|tokens|ast|docs|doc> [arguments]\n"

namespace Request

def readsInput : Request → Bool
  | .invoke invocation => invocation.command.readsInput
  | _ => false

def run (piped : Option ByteArray) : Request → Exit
  | .invoke invocation => invocation.run piped
  | .version => ⟨0, "sift 0.1.0\n", ""⟩
  | .help => ⟨0, usage, ""⟩
  | .misuse => ⟨2, "", usage⟩

end Request

/-- The whole program: its words, and the bytes piped in if its input is a pipe. -/
def runCommandLine (words : List String) (piped : Option ByteArray) : Exit :=
  (Arguments.read words).run piped

end NodeFilter

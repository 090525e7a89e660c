import NodeFilter.Document
import NodeFilter.Json.Reader

/-!
Checking a document against a filter. The filter is read first, so a fault in it
is reported whatever the document is.
-/

namespace NodeFilter

inductive CommandError where
  | filter (fault : SourceError)
  | evaluation (fault : EvalError)
  | json (fault : Json.ReadError)
  | invalidUtf8
  | noInput
  | unknownCategory (name : String)
  deriving DecidableEq

def CommandError.message : CommandError → String
  | .filter fault => s!"Parse error: {fault.message}"
  | .evaluation fault => s!"Evaluation error: {fault.message}"
  | .json fault => s!"Invalid JSON: {fault.message}"
  | .invalidUtf8 => "IO error: stream did not contain valid UTF-8"
  | .noInput => "No input provided. Use --input or pipe JSON to stdin."
  | .unknownCategory name =>
      s!"Unknown category: '{name}'\nRun 'sift docs' to see available categories."

structure Check where
  filter : String
  input : Option String
  syntaxOnly : Bool

structure Match where
  path : String
  value : Json

def Match.toJson (found : Match) : Json :=
  .object [("path", .string found.path), ("value", found.value)]

inductive CheckResult where
  | syntaxValid
  | found (nodes : List Match)

def CheckResult.toJson : CheckResult → Json
  | .syntaxValid => .null
  | .found nodes => .array (nodes.map Match.toJson)

def Match.ofNode (node : Node) : Match := ⟨node.path, node.value.toJson⟩

namespace Check

def searchDocument (expr : Expr) (document : Json) : Except CommandError CheckResult :=
  match selectNodes (some Value.contains) expr (Value.ofJson document) with
  | .error fault => .error (.evaluation fault)
  | .ok nodes => .ok (.found (nodes.map Match.ofNode))

def run (check : Check) : Except CommandError CheckResult :=
  match parse check.filter with
  | .error fault => .error (.filter fault)
  | .ok expr =>
      if check.syntaxOnly then .ok .syntaxValid
      else
        match check.input with
        | none => .error .noInput
        | some text =>
            match Json.read text with
            | .error fault => .error (.json fault)
            | .ok document => searchDocument expr document

end Check

end NodeFilter

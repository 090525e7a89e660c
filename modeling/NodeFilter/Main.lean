import NodeFilter.Command.Execution

/-! The program itself: it hands over its words and its input and prints what comes back. -/

namespace NodeFilter

def pipedInput (wanted : Bool) : IO (Option ByteArray) := do
  let input ← IO.getStdin
  if wanted then
    if ← input.isTty then return none
    return some (← input.readBinToEnd)
  return none

end NodeFilter

def main (words : List String) : IO UInt32 := do
  let request := NodeFilter.Arguments.read words
  let exit := request.run (← NodeFilter.pipedInput request.readsInput)
  IO.print exit.output
  IO.eprint exit.errors
  return exit.code.toUInt32

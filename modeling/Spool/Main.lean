import Spool.Console

/-!
# The command line

The program takes the name of a configuration file, or nothing, and holds a
conversation on its standard input and output. Each line is heard as soon as it is
typed.
-/

namespace Spool

open Console

/-- Look at the file the user named, if there is one. -/
def setupOf : List String → IO Setup
  | [] => pure .standard
  | path :: _ => do
    try
      let bytes ← IO.FS.readBinFile path
      return .file bytes.toList
    catch _ => return .unreadable

/-- Read one line with its end, given the bytes of it that were read, last first. -/
partial def readLine (input : IO.FS.Stream) (soFar : Bytes) : IO Bytes := do
  match (← input.read 1).toList with
  | [] => return soFar.reverse
  | b :: _ =>
    if b = lineFeed then return (b :: soFar).reverse
    readLine input (b :: soFar)

/-- Hear lines until the user is done. -/
partial def listen (input : IO.FS.Stream) (conversation : Conversation) : IO Conversation := do
  match conversation with
  | .typing _ =>
    match ← readLine input [] with
    | [] => return conversation
    | line => listen input (conversation.hear line)
  | _ => return conversation

end Spool

def main (args : List String) : IO UInt32 := do
  match (← Spool.setupOf args).device with
  | .error failure =>
    IO.eprintln failure.message
    return failure.status.toUInt32
  | .ok d =>
    let output ← IO.getStdout
    output.putStr Spool.Console.prompt
    output.flush
    let conversation ← Spool.listen (← IO.getStdin) (.typing d)
    let closing := conversation.close
    output.putStr closing.output
    return closing.status.toUInt32

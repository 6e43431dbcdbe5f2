import QueryCaret.Command.Report

/-!
# The program

Reads the command line, files and standard input, and prints the outcome.
-/

set_option autoImplicit false

namespace QueryCaret

/-- A refusal by the operating system. Its number may come negated, and its reason uncapitalized. -/
private def refusal (reason : String) (number : UInt32) : ReadFault :=
  let n := number.toNat
  .system reason.capitalize.toList (if n < 0x80000000 then n else 0x100000000 - n)

/-- The fault behind an error of the operating system. -/
private def faultOf : IO.Error → ReadFault
  | .alreadyExists _ number reason | .otherError number reason | .resourceBusy number reason
  | .resourceVanished number reason | .unsupportedOperation number reason
  | .hardwareFault number reason | .unsatisfiedConstraints number reason
  | .illegalOperation number reason | .protocolError number reason | .timeExpired number reason
  | .interrupted _ number reason | .noFileOrDirectory _ number reason
  | .invalidArgument _ number reason | .permissionDenied _ number reason
  | .resourceExhausted _ number reason | .inappropriateType _ number reason
  | .noSuchThing _ number reason => refusal reason number
  | .unexpectedEof => .system "unexpected end of file".toList 0
  | .userError reason => .system reason.toList 0

private partial def readToEnd (stream : IO.FS.Stream) (read : ByteArray) : IO ByteArray := do
  let chunk ← stream.read 65536
  if chunk.isEmpty then return read else readToEnd stream (read ++ chunk)

private def readSource (source : Source) : IO (Except ReadFault (List UInt8)) := do
  try
    let bytes ← match source with
      | .file path => IO.FS.readBinFile (String.ofList path.show)
      | .standardInput => readToEnd (← IO.getStdin) ByteArray.empty
    return .ok bytes.toList
  catch e => return .error (faultOf e)

end QueryCaret

open QueryCaret in
def main (arguments : List String) : IO UInt32 := do
  let outcome ← match ← runCommandLine readSource (arguments.map fun a => .ofText a.toList) with
    | .ok outcome => pure outcome
    | .error usage => pure (Outcome.ofUsage usage)
  (← IO.getStdout).putStr (String.ofList outcome.output)
  (← IO.getStderr).putStr (String.ofList outcome.errors)
  return outcome.exitCode.toUInt32

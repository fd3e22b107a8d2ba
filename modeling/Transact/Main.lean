import Transact.Command.Line

namespace Transact

/-- The words and the number of the operating system for an error. Some calls give the number with a
minus sign and the words without the capital. -/
def systemError : IO.Error → ReadError
  | .noFileOrDirectory _ number words | .permissionDenied _ number words
  | .inappropriateType _ number words | .invalidArgument _ number words
  | .noSuchThing _ number words | .resourceExhausted _ number words
  | .alreadyExists _ number words | .interrupted _ number words
  | .otherError number words | .resourceBusy number words | .resourceVanished number words
  | .unsupportedOperation number words | .hardwareFault number words
  | .unsatisfiedConstraints number words | .illegalOperation number words
  | .protocolError number words | .timeExpired number words => 
    .system words.capitalize number.toInt32.toInt.natAbs
  | e => .system (toString e) 0

def readFile (path : String) : IO (Except ReadError (List UInt8)) := do
  try
    return .ok (← IO.FS.readBinFile path).toList
  catch e =>
    return .error (systemError e)

partial def readAll (stream : IO.FS.Stream) (bytes : ByteArray) : IO ByteArray := do
  let chunk ← stream.read 65536
  if chunk.isEmpty then return bytes else readAll stream (bytes ++ chunk)

def readInput : Option String → IO (Except ReadError (List UInt8))
  | some path => readFile path
  | none => return .ok (← readAll (← IO.getStdin) .empty).toList

end Transact

open Transact in
def main (words : List String) : IO UInt32 := do
  match Request.ofWords? words with
  | none => return 2
  | some .version =>
    IO.print Request.versionText
    return 0
  | some (.run input command) =>
    match command.runContents (← readInput input) with
    | .ok output =>
      IO.print output
      return 0
    | .error e =>
      IO.eprintln e.message
      return 1

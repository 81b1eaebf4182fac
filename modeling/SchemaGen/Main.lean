import SchemaGen.CommandLine

/-!
# Program

A compiler plugin that reads a request from standard input and writes the response to standard
output. With the word `generate` in front of its arguments it works on a descriptor set in a file.
-/

namespace SchemaGen.Program

def logSetting : String := "PROTO2MONGOOSE_LOG_LEVEL"

partial def readAll (input : IO.FS.Stream) (taken : ByteArray) : IO ByteArray := do
  let chunk ← input.read 65536
  if chunk.isEmpty then return taken else readAll input (taken ++ chunk)

def plugin : IO UInt32 := do
  let payload := (← readAll (← IO.getStdin) ByteArray.empty).toList
  let setting := (← IO.getEnv logSetting).getD Log.defaultSetting
  let threshold ← match Log.Level.threshold setting with
    | .error fault => throw (IO.userError fault.message)
    | .ok threshold => pure threshold
  match Generation.run payload with
  | .error failure => throw (IO.userError failure.message)
  | .ok outcome =>
    (← IO.getStderr).putStr (Log.written threshold (Generation.logEntries payload))
    let output ← IO.getStdout
    output.write outcome.output.toByteArray
    output.flush
    return UInt32.ofNat outcome.status

def onDisk : Bundle.Storage IO where
  read path := return (← IO.FS.readBinFile path.text).toList
  makeDirectories path := IO.FS.createDirAll path.text
  write path content := IO.FS.writeBinFile path.text content.toByteArray
  settle
    | .error failure => throw (IO.userError failure.message)
    | .ok value => return value

def command (arguments : List String) : IO UInt32 := do
  let result ← CommandLine.perform onDisk arguments
  IO.print result.output
  IO.eprint result.complaints
  return UInt32.ofNat result.status

end SchemaGen.Program

def main (arguments : List String) : IO UInt32 :=
  match arguments with
  | "generate" :: rest => SchemaGen.Program.command rest
  | _ => SchemaGen.Program.plugin

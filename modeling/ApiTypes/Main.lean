import ApiTypes.CommandLine

/-! # The program

The command line on the files of the machine. -/

namespace ApiTypes

instance : Store IO where
  present p := do
    try
      let _ ← IO.FS.Handle.mk p .read
      return true
    catch _ => return false
  readText p := do
    try
      return String.fromUTF8? (← IO.FS.readBinFile p)
    catch _ => return none
  makeDirs p := do
    try
      if !p.isEmpty then IO.FS.createDirAll p
      return true
    catch _ => return false
  write p text := do
    try
      IO.FS.writeFile p text
      return true
    catch _ => return false

end ApiTypes

/-- Carry out the command and print what comes of it. -/
def main (args : List String) : IO UInt32 := do
  let o : ApiTypes.CommandLine.Outcome ← ApiTypes.CommandLine.run args
  let err ← IO.getStderr
  for n in o.notices do
    if n.level != .debug then err.putStrLn n.line
  (← IO.getStdout).putStr o.output
  match o.message with
  | some m => err.putStrLn m
  | none => pure ()
  return o.code.toUInt32

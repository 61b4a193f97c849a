import Formula.CommandLine

/-! The program: reads the settings files that the arguments name, and prints the outcome of the
run. -/

open Formula

def contentOf (path : String) : IO (Option String) := do
  try
    return some (← IO.FS.readFile path)
  catch _ => return none

def main (args : List String) : IO UInt32 := do
  let paths :=
    match CommandLine.configPath? args with
    | some path => [path, Config.overrideName path]
    | none => []
  let contents ← paths.mapM fun path => return (path, ← contentOf path)
  match CommandLine.run (fun path => (contents.lookup path).join) args with
  | .ok o =>
    IO.print o.output
    IO.eprint o.errors
    return UInt32.ofNat o.code
  | .error f =>
    IO.eprintln (f.message.getD "The expression has no value.")
    return 1

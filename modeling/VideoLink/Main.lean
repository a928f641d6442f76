import VideoLink.CommandLine

/-! The program. -/

def main (arguments : List String) : IO UInt32 := do
  match VideoLink.Command.read? arguments with
  | none =>
    IO.eprintln "error: wrong arguments"
    return 2
  | some command =>
    let outcome := command.execute
    IO.print outcome.output
    outcome.error?.forM fun text => IO.eprintln text
    return outcome.status.toUInt32

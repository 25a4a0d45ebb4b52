import BlockScript.Cli.Commands
import Std.Time

/-!
The command line program: answers the requests of `Cli.launch` from the real surroundings.
-/

namespace BlockScript

def orElse {α : Type} (action : IO α) (failed : α) : IO α := do
  try action catch _ => return failed

def readClock : IO Moment := do
  let t ← Std.Time.PlainDateTime.now
  return {
    year := t.year.toInt.toNat, month := t.month.val.toNat, day := t.day.val.toNat,
    weekday := t.weekday.toOrdinal.val.toNat - 1, hour := t.hour.val.toNat,
    minute := t.minute.val.toNat, second := t.second.val.toNat,
    millisecond := t.millisecond.val.toNat }

def answerHost : (request : Host.Request) → IO request.Answer
  | .readText path => orElse (some <$> IO.FS.readFile path) none
  | .pathExists path => orElse (do let _ ← IO.FS.realPath path; return true) false
  | .createFile path => orElse (IO.FS.withFile path .append fun _ => return true) false
  | .createFolder path => orElse (do IO.FS.createDirAll path; return true) false
  | .writeText path content => orElse (do IO.FS.writeFile path content; return true) false
  | .report event => IO.eprintln event.render
  | .ring => do
    try
      IO.eprint Console.bell
      return none
    catch e => return some e.toString
  | .now => readClock
  | .chance => do
    let n ← IO.rand 0 (Nat.pow 2 53 - 1)
    return Binary64.ofRatio false n (Nat.pow 2 53)

partial def sleepFor (milliseconds : Nat) : IO Unit := do
  let slice := min milliseconds 3600000
  IO.sleep slice.toUInt32
  if slice < milliseconds then sleepFor (milliseconds - slice)

def answerConsole : (request : Console.Request) → IO request.Answer
  | .host request => answerHost request
  | .print line => IO.println line
  | .complain line => IO.eprintln line
  | .pause duration => sleepFor (duration.nanoseconds / 1000000)

def performConsole {ε : Type} : ConsoleTask ε Nat → IO Nat
  | .done code => return code
  | .fail _ | .crash | .unfinished => return 1
  | .ask request resume => do
    let answer ← answerConsole request
    performConsole (resume answer)

end BlockScript

def main (args : List String) : IO UInt32 := do
  let home ← IO.getEnv "HOME"
  let code ← BlockScript.performConsole (BlockScript.Cli.launch home args)
  return code.toUInt32

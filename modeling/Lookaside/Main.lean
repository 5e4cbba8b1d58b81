import Lookaside.CommandLine
import Lookaside.Demo
import Lookaside.Log.Render
import Std.Time.DateTime.PlainDateTime
import Std.Time.DateTime.Timestamp

namespace Lookaside.Main

def variableNames : List String :=
  ["LOG_JSON", "DEMO_SEED", "CACHE_TTL_SECONDS", "CACHE_MAX_ENTRIES", "CACHE_VALIDATE_ALL_COUNT",
    "CACHE_ALLOW_ZERO_COUNT"]

def readEnvironment : IO Environment := do
  let values ← variableNames.mapM fun name => do return (name, ← IO.getEnv name)
  return fun name => ((values.find? (·.1 = name)).bind (·.2)).map Bytes.ofText

def ofPlain? (t : Std.Time.PlainDateTime) : Option Calendar.UtcTime := do
  let date ← Calendar.Date.of? t.date.year.toInt t.date.month.val.toNat t.date.day.val.toNat
  let hour := t.time.hour.val.toNat
  let minute := t.time.minute.val.toNat
  let second := t.time.second.val.toNat
  let nano := t.time.nanosecond.val.toNat
  if h : Calendar.IsTime hour minute second nano then
    return ⟨date, hour, minute, second, nano, h⟩
  else none

def now : IO Calendar.UtcTime := do
  let t ← Std.Time.Timestamp.now
  let wall := Std.Time.WallTime.ofNanoseconds t.toDurationSinceUnixEpoch.toNanoseconds
  return (ofPlain? (.ofWallTime wall)).getD .epoch

def stamp : IO Demo.Stamp := do
  let high ← IO.rand 0 Environment.maxWord
  let low ← IO.rand 0 Environment.maxWord
  return ⟨.random (BitVec.ofNat 64 high ++ BitVec.ofNat 64 low), ← now⟩

def print (json : Bool) (line : Log.Line) : IO Unit :=
  match line.level with
  | .trace => return
  | _ => IO.println (if json then (Bytes.text? line.json).getD "" else line.plain)

def usage : String :=
  "usage: lookaside [--json] demo [--seed N] [--json]"

def stop : CommandLine.Stop → IO UInt32
  | .displayHelp => do
    IO.println usage
    return 0
  | .displayVersion => do
    IO.println "lookaside"
    return 0
  | _ => do
    IO.eprintln usage
    return 2

def demo (env : Environment) (c : CommandLine.Command) : IO UInt32 := do
  let stamps ← (List.range (if c.seed ≤ Demo.maxSites then c.seed else 0)).mapM fun _ => stamp
  let start ← IO.monoNanosNow
  let (result, events) := Demo.run (Settings.ofEnvironment env) c.seed
    (fun i => stamps.getD i ⟨.nil, .epoch⟩) { start }
  for e in events do
    print c.json e.line
  match result with
  | .ok () => return 0
  | .error _ => return 1

end Lookaside.Main

def main (args : List String) : IO UInt32 := do
  let env ← Lookaside.Main.readEnvironment
  match Lookaside.CommandLine.parse env ("lookaside" :: args |>.map Lookaside.Bytes.ofText) with
  | .error stop => Lookaside.Main.stop stop
  | .ok command => Lookaside.Main.demo env command

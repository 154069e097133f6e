import LineShell.Program.Front
import LineShell.Text.Lines
import LineShell.Text.Show
import Std.Time.Zoned

namespace LineShell.Machine

structure Front where
  write : Text → IO Unit
  read : IO Reading
  notice : Text → IO Unit
  finish : IO Unit

def put (stream : IO.FS.Stream) (text : Text) : IO Unit := do
  stream.putStr text.shown
  stream.flush

-- Reads line by line. What the stream gives up to a newline can hold several lines,
-- so those that are not asked for yet are kept.
def reader (stream : IO.FS.Stream) : IO (IO Reading) := do
  let kept ← IO.mkRef ([] : List Text)
  return do
    let lines ← kept.get
    let fetched ← if lines.isEmpty then stream.getLine.toBaseIO else pure (.ok "")
    match lines, fetched with
    | line :: rest, _ =>
      kept.set rest
      return .line line
    | [], .error error => return .failed ⟨.system, Text.ofString (toString error)⟩
    | [], .ok given =>
      match (Text.ofString given).lines with
      | [] => return .failed .endOfInput
      | line :: rest =>
        kept.set rest
        return .line line

def plainFront : IO Front := do
  let next ← reader (← IO.getStdin)
  let output ← IO.getStdout
  let errors ← IO.getStderr
  return {
    write := put output
    read := next
    notice := fun text => put errors (text ++ [.newline])
    finish := put output [.newline] }

def terminalFront : IO Front := do
  let next ← reader (← IO.getStdin)
  let output ← IO.getStdout
  let state ← IO.mkRef ({} : HeldLine)
  let call (call : HeldLine.Call) : IO Unit := do
    let (line, outputs) := (← state.get).apply call
    state.set line
    outputs.forM fun shown => put output shown.text
  return {
    write := fun text => call (.write text)
    read := do
      call (.read [])
      next
    notice := fun text => call (.write (text ++ [.newline]))
    finish := do
      call .flush
      call (.write [.newline]) }

def padded (width : Nat) (n : Int) : Text :=
  let digits := Text.ofNat n.toNat
  List.replicate (width - digits.length) (CodePoint.ofChar '0') ++ digits

def now : IO Text := do
  let time ← Std.Time.PlainDateTime.now
  let date := Text.joined "-"
    [padded 4 time.year.toInt, padded 2 time.month.toInt, padded 2 time.day.toInt]
  let clock := Text.joined ":"
    [padded 2 time.hour.toInt, padded 2 time.minute.toInt, padded 2 time.second.toInt]
  let fraction := padded 6 (time.nanosecond.toInt / 1000)
  return date ++ Text.ofString "T" ++ clock ++ Text.ofString "." ++ fraction

-- Adds one entry to the crash log. Nothing that goes wrong here is told to anyone.
def log (environment : Environment) (report : Report) : IO Unit := do
  match DataRoot.path environment with
  | .error _ => return ()
  | .ok root =>
    let path := CrashLog.path root
    let entry := CrashLog.entry ⟨← now, "no trace"⟩ report
    try
      IO.FS.createDirAll path.parent.text.shown
      IO.FS.withFile path.text.shown .append fun file =>
        match entry.encode with
        | .ok bytes => file.write ⟨bytes.toArray⟩
        | .error _ => return ()
    catch _ => return ()

-- The part of the disk that a session can see: one file and the directories above it.
def view (path : Path) : IO Disk := do
  let above := (List.range path.names.length).map fun n => ((path.names.take n).map Text.bytes, Node.directory)
  let bare : Disk := ⟨above, []⟩
  let place := path.names.map Text.bytes
  match ← (IO.FS.readBinFile path.text.shown).toBaseIO with
  | .ok content => return bare.put place (.file content.toList)
  | .error (.noFileOrDirectory _ _ _) => return bare
  | .error _ => return bare.put place .directory

partial def play (front : Front) (environment : Environment) (loop : Loop) : IO Unit := do
  let loop := loop.advance
  front.write loop.screen.prompt
  if loop.screen.quit then return ()
  let turn := loop.receive { reads := [← front.read] }
  turn.effects.forM fun
    | .wrote text => front.write text
    | .reported report => log environment report
    | _ => return ()
  play front environment turn.loop

-- Writes what closing the store leaves on the part of the disk that was seen.
def save (front : Front) (store : Store) (disk : Disk) : IO Unit := do
  match store.close disk with
  | .error _ => return ()
  | .ok closed =>
    closed.notices.forM fun notice => front.notice notice.text
    match closed.notices, closed.disk.read store.path with
    | [], .ok content =>
      match ← (IO.FS.writeBinFile store.path.text.shown ⟨content.toArray⟩).toBaseIO with
      | .ok _ => return ()
      | .error error => front.notice (Text.ofString (toString error))
    | _, _ => return ()

def run (arguments : List String) : IO UInt32 := do
  let names := ["PATH", "HOME", "CRATCHIT_DATA_HOME", "CRATCHIT_LEGACY_UI"]
  let pairs ← names.filterMapM fun name => do
    return (← IO.getEnv name).map fun value => (Text.ofString name, Text.ofString value)
  let environment := Environment.ofList pairs
  let directory := Path.ofText (Text.ofString (← IO.currentDir).toString)
  let startup := Startup.resolve (arguments.map Text.ofString) environment directory
  let settings := Settings.packaged
  let path := settings.entriesPath startup.directory
  let disk ← view path
  let launch : Launch := ⟨startup, settings, environment, ⟨[], []⟩, disk⟩
  let terminal ← (← IO.getStdin).isTty
  let front ← if Program.isPlain environment terminal then plainFront else terminalFront
  front.write (Program.header launch)
  match (Store.make path settings.seeds).open disk, Interpreter.ofSettings path settings with
  | .ok opened, .ok interpreter =>
    opened.notices.forM fun notice => front.notice notice.text
    try play front environment (Loop.start interpreter startup.command)
    finally save front opened.store disk
    front.finish
    return 0
  | _, _ => return 1

end LineShell.Machine

def main (arguments : List String) : IO UInt32 := LineShell.Machine.run arguments

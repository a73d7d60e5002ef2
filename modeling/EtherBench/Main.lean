import EtherBench.Command.Program

/-!
# The program at the command line

Standard input is read as it comes. What it brings is handed to the tool at once,
and the answers are written before more is read.
-/

namespace EtherBench.Command

/-- The fault behind a failed call. -/
def faultOf (e : IO.Error) : Fault :=
  match e with
  | .resourceVanished .. => Fault.brokenPipe
  | .permissionDenied .. => ⟨.permissionDenied, toString e⟩
  | e => ⟨.other, toString e⟩

def fail (f : Failure) : IO UInt32 := do
  IO.eprintln s!"error: {f.message}"
  return UInt32.ofNat f.code

/-- Runs a tool on standard input. An end of stream that is only the end of what
has come so far is not the end. -/
partial def serve (s : Session) (d : Dispatcher) (state : s.State) : IO UInt32 := do
  let stdin ← IO.getStdin
  let stdout ← IO.getStdout
  let piece ← stdin.read (USize.ofNat Reader.chunkSize)
  let ended := piece.isEmpty
  let source : Source := if ended then {} else { events := [.data piece.toList] }
  let (result, d, state, out) :=
    ({ d with reader := { d.reader with source } } : Dispatcher).run s.tool.handler (state, {})
  stdout.write ⟨out.data⟩
  stdout.flush
  match result, ended with
  | .ok (), true => return UInt32.ofNat Exit.success
  | .ok (), false => serve s d state
  | .error (.closedMidMessage _), false => serve s d state
  | .error e, _ => fail (.ofMessage s.name e)

def process (args : List String) : IO UInt32 := do
  let fallback : Format := if ← (← IO.getStdout).isTty then .table else .json
  match start fallback args with
  | .done output =>
    IO.print output
    return UInt32.ofNat Exit.success
  | .failed f => fail f
  | .session s =>
    try serve s (Dispatcher.ofSource {} s.count) s.state
    catch e => fail (.ofMessage s.name (.fault (faultOf e)))

end EtherBench.Command

def main (args : List String) : IO UInt32 := EtherBench.Command.process args

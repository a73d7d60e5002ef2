import EtherBench.Message.Dispatch
import EtherBench.Message.Writer

/-!
# Tools

A tool answers an event with messages. What it becomes does not depend on how
its answers fare: they go out in order afterwards, up to the first that fails.
-/

namespace EtherBench

/-- The answers to an event and what the tool becomes, or why the event is refused. -/
abbrev Tool (σ : Type) := Event → σ → Except MessageError (List Message × σ)

namespace Tool

variable {σ : Type}

/-- What a refused event or a failed answer leaves of tool and stream. -/
def answer (reaction : Except MessageError (List Message × σ)) (s : σ) (out : Sink) :
    Except MessageError Unit × σ × Sink :=
  match reaction with
  | .error e => (.error e, s, out)
  | .ok (ms, s) =>
    match out.sendEach ms with
    | (result, out) => (result, s, out)

/-- The tool with its answers written to a stream. -/
def handler (tool : Tool σ) : Handler (σ × Sink)
  | e, (s, out) => answer (tool e s) s out

end Tool

end EtherBench

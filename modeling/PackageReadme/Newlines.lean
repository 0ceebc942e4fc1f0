/-! No more than two newlines in a row.

`limit` drops every newline after the second of a run. A `Limiter` does the same to a stream of
bytes that arrives in pieces and leaves through a sink, which may be full: what it has seen of a run
carries over from one piece to the next, whether or not the sink took the piece. -/
namespace PackageReadme.Newlines

/-- The longest run of newlines that is let through. -/
def longestRun : Nat := 2

/-! ### Lists -/

section
variable {α : Type} [DecidableEq α] (newline : α)

/-- The symbols that are let through after a run of `run` newlines. -/
def limitAfter (run : Nat) : List α → List α
  | [] => []
  | a :: rest =>
    if a = newline then
      if run < longestRun then a :: limitAfter (run + 1) rest else limitAfter (run + 1) rest
    else a :: limitAfter 0 rest

/-- The number of newlines at the end of the symbols, after a run of `run` newlines. -/
def runAfter (run : Nat) : List α → Nat
  | [] => run
  | a :: rest => runAfter (if a = newline then run + 1 else 0) rest

def limit (s : List α) : List α :=
  limitAfter newline 0 s

end

/-- A text without the newlines that follow the second of a run. -/
def normalize (s : String) : String :=
  String.ofList (limit '\n' s.toList)

/-! ### Streams -/

/-- The newline as a byte. -/
def newlineByte : UInt8 := 10

/-- A place for bytes, which may have a bound on their number. -/
structure Sink where
  capacity : Option Nat := none
  bytes : List UInt8 := []
  deriving DecidableEq, Repr

/-- Puts bytes into a sink, as many as fit, and says whether all of them did. -/
def Sink.put (sink : Sink) (bytes : List UInt8) : Bool × Sink :=
  match sink.capacity with
  | none => (true, { sink with bytes := sink.bytes ++ bytes })
  | some capacity =>
    let room := capacity - sink.bytes.length
    (bytes.length ≤ room, { sink with bytes := sink.bytes ++ bytes.take room })

/-- A stream on its way into a sink, after a run of `run` newlines. -/
structure Limiter where
  run : Nat := 0
  sink : Sink := {}
  deriving DecidableEq, Repr

/-- Sends a buffer through a limiter. The answer is the number of bytes taken, dropped newlines
included, or none if the sink could not hold what was let through. -/
def Limiter.write (limiter : Limiter) (buffer : List UInt8) : Option Nat × Limiter :=
  let (fits, sink) := limiter.sink.put (limitAfter newlineByte limiter.run buffer)
  (if fits then some buffer.length else none, ⟨runAfter newlineByte limiter.run buffer, sink⟩)

end PackageReadme.Newlines

import Mathlib.Data.List.Induction
import PackageReadme.Proofs.Rendering

/-! Limiting newlines part by part.

A limiter that is sent a stream in parts remembers what it has seen of a run (`Follows.run`), so
that what it lets through is what is let through of the whole stream, as far as the sink has room
for it (`Follows.sink`). Each write keeps to this, also one that fails (`Follows.write`). Main
statement: `sent_limits_stream`. -/
namespace PackageReadme.Newlines

/-! ### Limiting in two parts -/

section
variable {α : Type} [DecidableEq α] {newline : α}

theorem runAfter_append (run : Nat) (a b : List α) :
    runAfter newline run (a ++ b) = runAfter newline (runAfter newline run a) b := by
  induction a generalizing run with
  | nil => rfl
  | cons c a ih => exact ih _

theorem limitAfter_append (run : Nat) (a b : List α) :
    limitAfter newline run (a ++ b) =
      limitAfter newline run a ++ limitAfter newline (runAfter newline run a) b := by
  induction a generalizing run with
  | nil => rfl
  | cons c a ih =>
    rw [List.cons_append, limitAfter, limitAfter, runAfter]
    by_cases hc : c = newline
    · rw [if_pos hc, if_pos hc, if_pos hc, ih]
      split <;> rfl
    · rw [if_neg hc, if_neg hc, if_neg hc, ih]
      rfl

/-- A list ends in as many newlines as its run is long. -/
theorem replicate_isSuffix_iff {k : Nat} {s : List α} :
    List.replicate k newline <:+ s ↔ k ≤ runAfter newline 0 s := by
  induction s using List.reverseRecOn generalizing k with
  | nil => simp [runAfter]
  | append_singleton s a ih =>
    rw [runAfter_append, runAfter, runAfter]
    cases k with
    | zero => exact iff_of_true List.nil_suffix (Nat.zero_le _)
    | succ k =>
      rw [List.replicate_succ']
      constructor
      · intro ⟨front, h⟩
        rw [← List.append_assoc] at h
        obtain ⟨hfront, ha⟩ := List.append_inj' h rfl
        rw [if_pos (List.singleton_inj.mp ha).symm]
        exact Nat.succ_le_succ (ih.mp ⟨front, hfront⟩)
      · intro h
        by_cases ha : a = newline
        · rw [if_pos ha] at h
          obtain ⟨front, hfront⟩ := ih.mpr (Nat.le_of_succ_le_succ h)
          exact ⟨front, by rw [← List.append_assoc, hfront, ha]⟩
        · rw [if_neg ha] at h
          cases h

/-- Symbol by symbol, a newline is dropped just if two newlines stand before it. -/
theorem limit_concat (s : List α) (a : α) :
    limit newline (s ++ [a]) =
      limit newline s ++ if a = newline ∧ [newline, newline] <:+ s then [] else [a] := by
  have hlong : [newline, newline] <:+ s ↔ longestRun ≤ runAfter newline 0 s :=
    replicate_isSuffix_iff (k := 2)
  rw [limit, limit, limitAfter_append, limitAfter, limitAfter, limitAfter]
  by_cases ha : a = newline
  · by_cases hrun : runAfter newline 0 s < longestRun
    · rw [if_pos ha, if_pos hrun, if_neg fun h => Nat.not_le_of_lt hrun (hlong.mp h.2)]
    · rw [if_pos ha, if_neg hrun, if_pos ⟨ha, hlong.mpr (Nat.le_of_not_lt hrun)⟩]
  · rw [if_neg ha, if_neg fun h => ha h.1]

end

/-! ### Writing in parts -/

/-- A limiter after it was sent some buffers, one write for each. -/
def Limiter.sent (limiter : Limiter) : List (List UInt8) → Limiter
  | [] => limiter
  | buffer :: rest => (limiter.write buffer).2.sent rest

/-- What a sink takes of some bytes. -/
def upTo (capacity : Option Nat) (bytes : List UInt8) : List UInt8 :=
  match capacity with
  | none => bytes
  | some n => bytes.take n

/-- There are more bytes than a sink can hold. -/
def Exceeds (capacity : Option Nat) (bytes : List UInt8) : Prop :=
  ∃ n, capacity = some n ∧ n < bytes.length

/-- A limiter over a sink of some capacity has been sent the bytes of a stream. -/
structure Follows (capacity : Option Nat) (stream : List UInt8) (limiter : Limiter) : Prop where
  run : limiter.run = runAfter newlineByte 0 stream
  sink : limiter.sink = ⟨capacity, upTo capacity (limit newlineByte stream)⟩

theorem follows_nil (capacity : Option Nat) : Follows capacity [] { sink := { capacity } } := by
  refine ⟨rfl, ?_⟩
  cases capacity with
  | none => rfl
  | some n => rw [limit, limitAfter, upTo, List.take_nil]

/-- A sink that holds what it could of some bytes takes more bytes up to its capacity, and it has no
room for all of them just if there are some and they reach past that. -/
theorem put_upTo (capacity : Option Nat) (before bytes : List UInt8) :
    (Sink.put ⟨capacity, upTo capacity before⟩ bytes).2 =
      ⟨capacity, upTo capacity (before ++ bytes)⟩ ∧
      ((Sink.put ⟨capacity, upTo capacity before⟩ bytes).1 = false ↔
        bytes ≠ [] ∧ Exceeds capacity (before ++ bytes)) := by
  cases capacity with
  | none => simp [Sink.put, upTo, Exceeds]
  | some n =>
    have hroom : n - (before.take n).length = n - before.length := by
      rw [List.length_take]
      omega
    simp only [Sink.put, upTo, hroom]
    constructor
    · rw [List.take_append]
    · rw [decide_eq_false_iff_not, ← List.length_pos_iff]
      simp only [Exceeds, Option.some.injEq, exists_eq_left', List.length_append]
      omega

theorem Limiter.write_eq (limiter : Limiter) (buffer : List UInt8) :
    limiter.write buffer =
      let put := limiter.sink.put (limitAfter newlineByte limiter.run buffer)
      (if put.1 then some buffer.length else none, ⟨runAfter newlineByte limiter.run buffer, put.2⟩) :=
  rfl

/-- **A write keeps a limiter on the stream**, whether or not it fails. It fails just if some of its
bytes are let through and the sink has no room for all of them, and else it takes its whole
buffer. -/
theorem Follows.write {capacity : Option Nat} {stream : List UInt8} {limiter : Limiter}
    (h : Follows capacity stream limiter) (buffer : List UInt8) :
    Follows capacity (stream ++ buffer) (limiter.write buffer).2 ∧
      ∃ kept, limit newlineByte (stream ++ buffer) = limit newlineByte stream ++ kept ∧
        ((limiter.write buffer).1 = none ↔
          kept ≠ [] ∧ Exceeds capacity (limit newlineByte (stream ++ buffer))) ∧
        ((limiter.write buffer).1 ≠ none → (limiter.write buffer).1 = some buffer.length) := by
  obtain ⟨run, sink⟩ := limiter
  obtain ⟨rfl, rfl⟩ := h
  have hlimit : limit newlineByte (stream ++ buffer) =
      limit newlineByte stream ++ limitAfter newlineByte (runAfter newlineByte 0 stream) buffer :=
    limitAfter_append 0 stream buffer
  obtain ⟨hsink, hfull⟩ :=
    put_upTo capacity (limit newlineByte stream)
      (limitAfter newlineByte (runAfter newlineByte 0 stream) buffer)
  rw [← hlimit] at hsink hfull
  simp only [Limiter.write_eq]
  generalize Sink.put _ _ = result at hsink hfull ⊢
  obtain ⟨fits, sink⟩ := result
  refine ⟨⟨(runAfter_append ..).symm, hsink⟩, _, hlimit, ?_, fun hsome => ?_⟩
  · rw [← hfull]
    cases fits <;> simp
  · cases fits with
    | false => exact absurd rfl hsome
    | true => rfl

theorem Follows.sent {capacity : Option Nat} {stream : List UInt8} {limiter : Limiter}
    (h : Follows capacity stream limiter) (buffers : List (List UInt8)) :
    Follows capacity (stream ++ buffers.flatten) (limiter.sent buffers) := by
  induction buffers generalizing stream limiter with
  | nil => rwa [List.flatten_nil, List.append_nil]
  | cons buffer buffers ih =>
    rw [List.flatten_cons, ← List.append_assoc]
    exact ih (h.write buffer).1

/-- **A stream is limited whichever way it is cut into buffers, and into any sink.** After each
write the sink holds what it can of the stream so far without the newlines that follow the second of
a run, the buffers of failed writes counted too. A write fails just if bytes of its buffer are let
through and go past what the sink can hold, and else it takes its whole buffer. Without a bound, a
text that is cut anywhere, also inside a character, is limited as a text. -/
theorem sent_limits_stream (capacity : Option Nat) (buffers : List (List UInt8)) :
    (∀ buffer,
      let result := (Limiter.sent { sink := { capacity } } buffers).write buffer
      let stream := buffers.flatten
      result.2.sink.bytes = upTo capacity (limit newlineByte (stream ++ buffer)) ∧
        ∃ kept, limit newlineByte (stream ++ buffer) = limit newlineByte stream ++ kept ∧
          (result.1 = none ↔ kept ≠ [] ∧ Exceeds capacity (limit newlineByte (stream ++ buffer))) ∧
          (result.1 ≠ none → result.1 = some buffer.length)) ∧
    (∀ s : String, buffers.flatten = s.toUTF8.toList →
      (Limiter.sent {} buffers).sink.bytes = (normalize s).toUTF8.toList) ∧
    limit newlineByte [] = [] ∧
    ∀ (stream : List UInt8) (byte : UInt8), limit newlineByte (stream ++ [byte]) =
      limit newlineByte stream ++
        if byte = newlineByte ∧ [newlineByte, newlineByte] <:+ stream then [] else [byte] := by
  refine ⟨fun buffer => ?_, fun s hs => ?_, rfl, limit_concat⟩
  · obtain ⟨hfollows, hwrite⟩ := ((follows_nil capacity).sent buffers).write buffer
    exact ⟨congrArg Sink.bytes hfollows.sink, hwrite⟩
  · have hsink := ((follows_nil none).sent buffers).sink
    rw [List.nil_append, hs, toUTF8_toList, limit, limitAfter_bytes] at hsink
    rw [toUTF8_toList, normalize, String.toList_ofList]
    exact congrArg Sink.bytes hsink

/-- A run of newlines and a character of two bytes that are both cut. -/
theorem sent_limits_stream_cut :
    let buffers : List (List UInt8) := [[195], [169, 10, 10], [10], [10, 98]]
    let s := "é\n\n\n\nb"
    buffers.flatten = s.toUTF8.toList ∧
    (Limiter.sent {} buffers).sink.bytes = (normalize s).toUTF8.toList := by
  intro buffers s
  have hs : buffers.flatten = s.toUTF8.toList := by
    rw [toUTF8_toList]
    decide
  exact ⟨hs, (sent_limits_stream none buffers).2.1 s hs⟩

end PackageReadme.Newlines

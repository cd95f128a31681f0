/-!
# Bytes and bounded sinks

What the command writes goes to sinks that may be bounded. A sink keeps bytes up to its bound; a
write that does not fit is kept as far as it fits and fails, and so does every later write of at
least one byte. What a failed write is told belongs to the sink and not to the command.
-/

namespace PatternGrammar.Command

/-- The bytes of a text in UTF-8. -/
def bytesOf (text : String) : List UInt8 :=
  text.toUTF8.data.toList

/-- The text of bytes in UTF-8, if they are valid. -/
def textOf? (bytes : List UInt8) : Option String :=
  String.fromUTF8? bytes.toByteArray

/-- A bound on what a sink keeps. -/
structure Bound where
  /-- Greatest number of bytes kept. -/
  size : Nat
  /-- What a write is told that goes beyond it. -/
  refusal : String
  deriving DecidableEq

/-- Where output goes. -/
structure Sink where
  /-- The bound, if there is one. -/
  bound : Option Bound
  /-- The bytes kept so far. -/
  kept : List UInt8

namespace Sink

/-- A sink to which nothing has been written. -/
def empty (bound : Option Bound) : Sink := ⟨bound, []⟩

/-- The first bytes of a list, as many as a bound allows. -/
def cut (bound : Option Bound) (bytes : List UInt8) : List UInt8 :=
  match bound with
  | none => bytes
  | some bound => bytes.take bound.size

/-- What is said of bytes that go beyond a bound, and nothing of those that do not. -/
def refusal? (bound : Option Bound) (bytes : List UInt8) : Option String :=
  match bound with
  | none => none
  | some bound => if bytes.length ≤ bound.size then none else some bound.refusal

/-- The refusal of a write, if it is not kept whole, and the sink after it. -/
def write (sink : Sink) (bytes : List UInt8) : Option String × Sink :=
  (refusal? sink.bound (sink.kept ++ bytes), ⟨sink.bound, cut sink.bound (sink.kept ++ bytes)⟩)

/-- Nothing is said of bytes that stay within the bound. -/
theorem refusal?_eq_none_iff {bound : Option Bound} {bytes : List UInt8} :
    refusal? bound bytes = none ↔ ∀ given, bound = some given → bytes.length ≤ given.size := by
  cases bound with
  | none => simp [refusal?]
  | some bound => simp [refusal?]

/-- What is said of bytes that go beyond the bound. -/
theorem refusal?_eq_some_iff {bound : Option Bound} {bytes : List UInt8} {refusal : String} :
    refusal? bound bytes = some refusal ↔
      ∃ given, bound = some given ∧ given.size < bytes.length ∧ given.refusal = refusal := by
  cases bound with
  | none => simp [refusal?]
  | some bound => simp [refusal?]

/-- Bytes that nothing is said of are kept as they are. -/
theorem cut_of_within {bound : Option Bound} {bytes : List UInt8}
    (within : refusal? bound bytes = none) : cut bound bytes = bytes := by
  cases bound with
  | none => rfl
  | some bound => exact List.take_of_length_le (refusal?_eq_none_iff.mp within bound rfl)

/-- Cutting what is written first changes nothing about what is kept in the end. -/
theorem cut_append (bound : Option Bound) (first second : List UInt8) :
    cut bound (cut bound first ++ second) = cut bound (first ++ second) := by
  cases bound with
  | none => rfl
  | some bound =>
    rw [cut, cut, cut, List.take_append, List.take_append, List.take_take, Nat.min_self,
      List.length_take]
    congr 2
    omega

/-- What is refused is refused with more after it. -/
theorem refusal?_append {bound : Option Bound} {first : List UInt8} {refusal : String}
    (refused : refusal? bound first = some refusal) (second : List UInt8) :
    refusal? bound (first ++ second) = some refusal := by
  obtain ⟨given, hgiven, hbeyond, hrefusal⟩ := refusal?_eq_some_iff.mp refused
  refine refusal?_eq_some_iff.mpr ⟨given, hgiven, ?_, hrefusal⟩
  rw [List.length_append]
  omega

/-- A sink to which the bytes have been offered. -/
def offered (bound : Option Bound) (bytes : List UInt8) : Sink := ⟨bound, cut bound bytes⟩

/-- Nothing is kept of what is offered after something that is refused. -/
theorem offered_append_of_refused {bound : Option Bound} {first : List UInt8} {refusal : String}
    (refused : refusal? bound first = some refusal) (second : List UInt8) :
    offered bound (first ++ second) = offered bound first := by
  obtain ⟨given, rfl, hbeyond, -⟩ := refusal?_eq_some_iff.mp refused
  rw [offered, offered, cut, cut, List.take_append_of_le_length (Nat.le_of_lt hbeyond)]

/-- Nothing has been offered to an empty sink. -/
theorem empty_eq_offered (bound : Option Bound) : empty bound = offered bound [] := by
  cases bound <;> simp [empty, offered, cut]

/-- More bytes are offered by a write. -/
theorem write_offered (bound : Option Bound) (first second : List UInt8) :
    (offered bound first).write second =
      (refusal? bound (cut bound first ++ second), offered bound (first ++ second)) := by
  rw [write, offered, offered, cut_append]

/-- A write after bytes that were kept whole is refused if it would be refused together with
them. -/
theorem write_offered_of_within {bound : Option Bound} {first : List UInt8}
    (within : refusal? bound first = none) (second : List UInt8) :
    (offered bound first).write second =
      (refusal? bound (first ++ second), offered bound (first ++ second)) := by
  rw [write_offered, cut_of_within within]

end Sink

end PatternGrammar.Command

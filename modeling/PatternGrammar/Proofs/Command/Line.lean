import Mathlib.Data.List.TakeWhile
import PatternGrammar.Command.Law

/-!
# The pattern of a run

The bytes of a text give the text back, and no other bytes do. So the first line of the input holds
a pattern exactly if it is the encoding of a text, and then there is only one pattern in it.
-/

namespace PatternGrammar.Command

/-- The bytes of two texts, one after the other. -/
theorem bytesOf_append (first second : String) :
    bytesOf (first ++ second) = bytesOf first ++ bytesOf second := by
  simp [bytesOf]

/-- The empty text has no bytes. -/
theorem bytesOf_empty : bytesOf "" = [] := rfl

/-- The bytes of a text are read back as the text. -/
theorem textOf?_bytesOf (text : String) : textOf? (bytesOf text) = some text := by
  have hbytes : (bytesOf text).toByteArray = text.toByteArray := by
    refine ByteArray.ext ?_
    rw [List.data_toByteArray, bytesOf, String.toUTF8_eq_toByteArray]
  rw [textOf?, hbytes, String.fromUTF8?, dif_pos text.isValidUTF8]
  rfl

/-- Bytes that are read as a text are the bytes of that text. -/
theorem bytesOf_of_textOf? {bytes : List UInt8} {text : String}
    (htext : textOf? bytes = some text) : bytesOf text = bytes := by
  rw [textOf?, String.fromUTF8?] at htext
  split at htext
  next hvalid =>
    cases htext
    exact congrArg Array.toList List.data_toByteArray
  next => cases htext

/-- A text that does not end in a carriage return is left as it is. -/
theorem dropReturn_eq_self {text : String} (hreturn : text.toList.getLast? ≠ some '\r') :
    dropReturn text = text :=
  if_neg hreturn

/-- One carriage return is taken off the end of a text. -/
theorem dropReturn_append (text : String) : dropReturn (text ++ "\r") = text := by
  have hlist : (text ++ "\r").toList = text.toList ++ ['\r'] := String.toList_append ..
  rw [dropReturn, hlist, if_pos List.getLast?_concat, List.dropLast_concat, String.ofList_toList]

/-- A text ends in a carriage return, which is taken off, or is left as it is. -/
theorem dropReturn_cases (text : String) :
    text = dropReturn text ++ "\r" ∨ dropReturn text = text ∧ text.toList.getLast? ≠ some '\r' := by
  by_cases hreturn : text.toList.getLast? = some '\r'
  · obtain ⟨shorter, hlist⟩ := List.getLast?_eq_some_iff.mp hreturn
    have htext : text = String.ofList shorter ++ "\r" := by
      rw [← String.toList_inj, hlist, String.toList_append, String.toList_ofList]
      rfl
    left
    rw [htext, dropReturn_append]
  · exact .inr ⟨dropReturn_eq_self hreturn, hreturn⟩

/-- The first line is what stands before the first line feed. -/
theorem firstLine_iff {input line : List UInt8} :
    FirstLine input line ↔ input.takeWhile (· ≠ 10) = line := by
  have hother {bytes : List UInt8} (hfirst : 10 ∉ bytes) :
      ∀ byte ∈ bytes, decide (byte ≠ 10) = true :=
    fun byte hmem => decide_eq_true fun heq => hfirst (heq ▸ hmem)
  constructor
  · rintro (⟨rest, hfirst⟩ | hfirst)
    · rw [List.takeWhile_append_of_pos (hother hfirst), List.takeWhile_cons_of_neg (by decide),
        List.append_nil]
    · exact List.takeWhile_eq_self_iff.mpr (hother hfirst)
  · rintro rfl
    have hfirst : 10 ∉ input.takeWhile (· ≠ 10) := by
      intro hmem
      have hbyte := List.mem_takeWhile_imp hmem
      simp at hbyte
    have hinput := List.takeWhile_append_dropWhile (p := (· ≠ 10)) (l := input)
    have hnext := List.head?_dropWhile_not (· ≠ 10) input
    cases hrest : input.dropWhile (· ≠ 10) with
    | nil =>
      rw [hrest, List.append_nil] at hinput
      have hline := FirstLine.unended hfirst
      rwa [hinput] at hline ⊢
    | cons byte rest =>
      rw [hrest] at hinput hnext
      obtain rfl : byte = 10 := by simpa using hnext
      have hline := FirstLine.ended rest hfirst
      rwa [hinput] at hline

/-- The pattern that a run finds is the one that it is supplied with. -/
theorem patternText_eq_ok_iff {options : Options} {input : List UInt8} {text : String} :
    patternText options input = .ok text ↔ Supplies options input text := by
  unfold patternText firstLine?
  cases hgiven : options.pattern with
  | some argument =>
    constructor
    · rintro ⟨⟩
      exact .argument hgiven
    · rintro (hsame | ⟨hmissing⟩ | ⟨hmissing⟩)
      · exact congrArg Except.ok (Option.some.inj (hgiven.symm.trans hsame))
      · cases hgiven.symm.trans hmissing
      · cases hgiven.symm.trans hmissing
  | none =>
    constructor
    · cases hread : textOf? (input.takeWhile (· ≠ 10)) with
      | none => exact nofun
      | some line =>
        rintro ⟨⟩
        have hfirst : FirstLine input (bytesOf line) :=
          firstLine_iff.mpr (bytesOf_of_textOf? hread).symm
        rcases dropReturn_cases line with hreturned | ⟨hsame, hplain⟩
        · rw [hreturned] at hfirst
          exact .returned hgiven hfirst
        · rw [hsame]
          exact .line hgiven hfirst hplain
    · rintro (hsame | ⟨-, hfirst, hplain⟩ | ⟨-, hfirst⟩)
      · cases hgiven.symm.trans hsame
      · rw [firstLine_iff.mp hfirst, textOf?_bytesOf, Option.map_some, dropReturn_eq_self hplain]
      · rw [firstLine_iff.mp hfirst, textOf?_bytesOf, Option.map_some, dropReturn_append]

/-- A run that finds no pattern is supplied with none, and says that the input cannot be read. -/
theorem unread_of_patternText {options : Options} {input : List UInt8} {failure : Failure}
    (hfailed : patternText options input = .error failure) :
    failure = .unreadableInput ∧ ∀ text, ¬Supplies options input text := by
  refine ⟨?_, fun text hsupplies => ?_⟩
  · unfold patternText at hfailed
    split at hfailed
    next => cases hfailed
    next =>
      split at hfailed
      next => cases hfailed
      next => exact (Except.error.inj hfailed).symm
  · cases hfailed.symm.trans (patternText_eq_ok_iff.mpr hsupplies)

/-- There is only one pattern. -/
theorem Supplies.unique {options : Options} {input : List UInt8} {first second : String}
    (hfirst : Supplies options input first) (hsecond : Supplies options input second) :
    first = second :=
  Except.ok.inj
    ((patternText_eq_ok_iff.mpr hfirst).symm.trans (patternText_eq_ok_iff.mpr hsecond))

end PatternGrammar.Command

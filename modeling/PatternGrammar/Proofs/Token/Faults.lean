import Mathlib.Logic.ExistsUnique
import PatternGrammar.Proofs.Token.RoundTrip

/-!
# What is wrong with a text

Every text is of one of five sorts: it is empty, it is spelled by tokens, or it is spelled by tokens
up to a character that no token starts with, an opening that no token has, or an opening that the
text leaves unfinished. The sort and the place of the first fault decide the result of a scan. The
opening bracket of a capture group begins three other openings as well, so a text may break off
after it although it is spelled by tokens, and a question mark after it is no fault of its own.
-/

namespace PatternGrammar

namespace Token

/-- A text that proper tokens spell, one after another. -/
def Spelled (text : List Char) : Prop :=
  ∃ tokens : List Token, (∀ token ∈ tokens, token.Proper) ∧ text = spellings tokens

/-- A character that no token starts with. -/
def Foreign (c : Char) : Prop :=
  isLetter c = false ∧ c ∉ ['(', ')', '|', '*']

/-- The sort of a text, with the error that it has to give if it cannot be cut into tokens. -/
inductive Verdict : List Char → Option ScanError → Prop where
  /-- Nothing at all. -/
  | empty : Verdict [] (some .emptyPattern)
  /-- Tokens, the last of which is not the bare bracket of a capture group. -/
  | spelled {text : List Char} (nonempty : text ≠ []) (spelled : Spelled text)
    (closed : text.getLast? ≠ some '(') : Verdict text none
  /-- Tokens up to a character that starts none and does not continue the bracket before it. -/
  | foreign {before rest : List Char} {c : Char} (spelled : Spelled before) (foreign : Foreign c)
    (apart : ¬(c = '?' ∧ before.getLast? = some '(')) :
    Verdict (before ++ [c] ++ rest) (some (.unexpectedChar c (byteLength before)))
  /-- Tokens up to an opening that goes on with a character of no opening. -/
  | badOpening {before rest : List Char} {c : Char} (spelled : Spelled before)
    (other : c ≠ ':' ∧ c ≠ '=' ∧ c.isDigit = false) :
    Verdict (before ++ ['(', '?', c] ++ rest) (some (.badOpening c (byteLength before + 2)))
  /-- Tokens up to an opening that the text does not finish. -/
  | unfinished {before opening : List Char} (spelled : Spelled before)
    (begun : opening = ['('] ∨ opening = ['(', '?']) :
    Verdict (before ++ opening) (some (.unfinishedOpening (byteLength (before ++ opening))))

/-- The bytes of two texts in a row. -/
theorem byteLength_append (front back : List Char) :
    byteLength (front ++ back) = byteLength front + byteLength back := by
  induction front with
  | nil => simp only [List.nil_append, byteLength, Nat.zero_add]
  | cons c front ih => simp only [List.cons_append, byteLength, ih, Nat.add_assoc]

/-- A token and those after it are spelled one after another. -/
theorem spellings_cons (token : Token) (tokens : List Token) :
    spellings (token :: tokens) = token.spelling ++ spellings tokens := by
  rw [spellings, List.flatMap_cons, ← spellings]

/-- A token before a text that is spelled. -/
theorem Spelled.cons {token : Token} {text : List Char} (hproper : token.Proper)
    (hspelled : Spelled text) : Spelled (token.spelling ++ text) := by
  obtain ⟨tokens, hpropers, rfl⟩ := hspelled
  exact ⟨token :: tokens, List.forall_mem_cons.mpr ⟨hproper, hpropers⟩, (spellings_cons ..).symm⟩

/-- Nothing is spelled by no tokens. -/
theorem spelled_nil : Spelled [] := ⟨[], nofun, rfl⟩

/-- Of the proper tokens only the opening of a capture group ends in a bracket that opens. -/
theorem Proper.getLast?_spelling {token : Token} (hproper : token.Proper) :
    token.spelling.getLast? = some '(' ↔ token.kind = .openCapture := by
  obtain ⟨kind, payload, offset⟩ := token
  cases kind with
  | letter =>
    obtain ⟨c, rfl, hletter⟩ := hproper
    have hother : c ≠ '(' := by
      rintro rfl
      exact absurd hletter (by decide)
    simp [spelling, hother]
  | openReference =>
    obtain ⟨digit, rfl, hdigit⟩ := hproper
    have hother : digit ≠ '(' := by
      rintro rfl
      exact absurd hdigit (by decide)
    simp [spelling, hother]
  | _ => simp [spelling]

/-- The last character of a text after a token is that of the text, if it has one. -/
theorem getLast?_spelling_append (token : Token) {text : List Char} (hnonempty : text ≠ []) :
    (token.spelling ++ text).getLast? = text.getLast? := by
  rw [List.getLast?_append, List.getLast?_eq_some_getLast hnonempty, Option.some_or]

/-- What may follow a text that is spelled: nothing or a question mark may not, if the text ends in
the bracket of a capture group. -/
def Continues (before rest : List Char) : Prop :=
  before.getLast? = some '(' → ∃ c others, rest = c :: others ∧ c ≠ '?'

/-- What may follow tokens may follow the first of them and the others before it. -/
theorem Continues.precedes {token : Token} {tokens : List Token} {rest : List Char}
    (hcontinues : Continues (spellings (token :: tokens)) rest) (hproper : token.Proper)
    (hothers : ∀ other ∈ tokens, other.Proper) : token.Precedes (spellings tokens ++ rest) := by
  intro hcapture
  cases tokens with
  | nil =>
    have hlast := hproper.getLast?_spelling.mpr hcapture
    refine hcontinues ?_
    rw [spellings_cons, spellings, List.flatMap_nil, List.append_nil, hlast]
  | cons second tokens =>
    have hsecond := hothers second List.mem_cons_self
    obtain ⟨c, others, hspelling, hother⟩ := hsecond.head_spelling
    refine ⟨c, others ++ spellings tokens ++ rest, ?_, hother⟩
    simp only [spellings_cons, hspelling, List.cons_append]

/-- What may follow tokens may follow those after the first. -/
theorem Continues.tail {token : Token} {tokens : List Token} {rest : List Char}
    (hcontinues : Continues (spellings (token :: tokens)) rest) :
    Continues (spellings tokens) rest := by
  intro hlast
  have hnonempty : spellings tokens ≠ [] := by
    intro hnil
    rw [hnil] at hlast
    cases hlast
  refine hcontinues ?_
  rw [spellings_cons, getLast?_spelling_append token hnonempty, hlast]

/-- A text that is spelled is cut into tokens, whatever may follow it. -/
theorem scanFrom_spelled_append {before rest : List Char} (hspelled : Spelled before)
    (hcontinues : Continues before rest) (offset : Nat) :
    ∃ tokens, scanFrom offset (before ++ rest) =
      (scanFrom (offset + byteLength before) rest).map (tokens ++ ·) := by
  obtain ⟨tokens, hpropers, rfl⟩ := hspelled
  -- The offset is general, since each token moves the rest to a later one.
  induction tokens generalizing offset with
  | nil =>
    have hsame : (([] : List Token) ++ ·) = id := funext List.nil_append
    exact ⟨[], by rw [hsame, Except.map_id]; rfl⟩
  | cons token tokens ih =>
    obtain ⟨hproper, hothers⟩ := List.forall_mem_cons.mp hpropers
    have hplaced : Proper ⟨token.kind, token.payload, offset⟩ := hproper
    have hprecedes : Precedes ⟨token.kind, token.payload, offset⟩ (spellings tokens ++ rest) :=
      hcontinues.precedes hproper hothers
    have hfirst : scanFrom offset (token.spelling ++ (spellings tokens ++ rest)) =
        (scanFrom (offset + byteLength token.spelling) (spellings tokens ++ rest)).map
          (⟨token.kind, token.payload, offset⟩ :: ·) := scanFrom_spelling hplaced hprecedes
    obtain ⟨laid, hlaid⟩ := ih (offset + byteLength token.spelling) hothers hcontinues.tail
    refine ⟨⟨token.kind, token.payload, offset⟩ :: laid, ?_⟩
    rw [spellings_cons, List.append_assoc, hfirst, hlaid, byteLength_append, Nat.add_assoc]
    cases scanFrom (offset + (byteLength token.spelling + byteLength (spellings tokens))) rest with
    | error error => rfl
    | ok others => rfl

/-- The result of a scan is the given error, or tokens if none is given. -/
def Delivers (result : Except ScanError (List Token)) : Option ScanError → Prop
  | none => ∃ tokens, result = .ok tokens
  | some error => result = .error error

/-- A result delivers one thing only. -/
theorem Delivers.unique {result : Except ScanError (List Token)} {verdict other : Option ScanError}
    (hverdict : Delivers result verdict) (hother : Delivers result other) : verdict = other := by
  cases result with
  | ok tokens =>
    cases verdict with
    | none =>
      cases other with
      | none => rfl
      | some error => cases hother
    | some error => cases hverdict
  | error error =>
    cases verdict with
    | none =>
      obtain ⟨_, heq⟩ := hverdict
      cases heq
    | some error =>
      cases other with
      | none =>
        obtain ⟨_, heq⟩ := hother
        cases heq
      | some error =>
        cases hverdict
        cases hother
        rfl

/-- A text with something in it is scanned from its start. -/
theorem scan_ofList {text : List Char} (hnonempty : text ≠ []) :
    scan (String.ofList text) = scanFrom 0 text := by
  rw [scan, String.toList_ofList]
  split
  next => exact absurd rfl hnonempty
  next => rfl

/-- A fault after a text that is spelled is the result of the scan. -/
theorem scan_of_fault {before rest : List Char} {error : ScanError} (hspelled : Spelled before)
    (hcontinues : Continues before rest) (hrest : rest ≠ [])
    (hfault : scanFrom (byteLength before) rest = .error error) :
    scan (String.ofList (before ++ rest)) = .error error := by
  have hnonempty : before ++ rest ≠ [] := List.append_ne_nil_of_right_ne_nil before hrest
  obtain ⟨tokens, hscan⟩ := scanFrom_spelled_append hspelled hcontinues 0
  rw [scan_ofList hnonempty, hscan, Nat.zero_add, hfault]
  rfl

/-- A character that no token starts with ends the scan. -/
theorem scanFrom_foreign {c : Char} (hforeign : Foreign c) (offset : Nat) (rest : List Char) :
    scanFrom offset (c :: rest) = .error (.unexpectedChar c offset) := by
  obtain ⟨hletter, hmem⟩ := hforeign
  simp only [List.mem_cons, List.not_mem_nil, or_false, not_or] at hmem
  obtain ⟨hopening, hclosing, hbar, hstar⟩ := hmem
  rw [scanFrom, if_neg (by simp [hletter])]
  · exact fun heq => absurd heq hopening
  · exact fun heq => absurd heq hopening
  · exact fun _ _ heq => absurd heq hopening
  · exact hopening
  · exact hclosing
  · exact hbar
  · exact hstar

/-- An opening that goes on with a character of no opening ends the scan. -/
theorem scanFrom_badOpening {c : Char} (hother : c ≠ ':' ∧ c ≠ '=' ∧ c.isDigit = false)
    (offset : Nat) (rest : List Char) :
    scanFrom offset ('(' :: '?' :: c :: rest) = .error (.badOpening c (offset + 2)) := by
  obtain ⟨hplain, hlookahead, hdigit⟩ := hother
  rw [scanFrom, if_neg hplain, if_neg hlookahead, if_neg (by simp [hdigit])]

/-- The sort of a text decides the result of its scan. -/
theorem Verdict.delivers {text : List Char} {verdict : Option ScanError}
    (hverdict : Verdict text verdict) : Delivers (scan (String.ofList text)) verdict := by
  -- A bracket that opens may follow every text that is spelled.
  have hbracket : ∀ before others, Continues before ('(' :: others) :=
    fun _ others _ => ⟨'(', others, rfl, by decide⟩
  cases hverdict with
  | empty => rfl
  | spelled hnonempty hspelled hclosed =>
    have hcontinues : Continues text [] := fun hlast => absurd hlast hclosed
    obtain ⟨tokens, hscan⟩ := scanFrom_spelled_append hspelled hcontinues 0
    rw [List.append_nil] at hscan
    exact ⟨tokens ++ [], (scan_ofList hnonempty).trans hscan⟩
  | @foreign before rest c hspelled hforeign hapart =>
    have hcontinues : Continues before (c :: rest) :=
      fun hlast => ⟨c, rest, rfl, fun hmark => hapart ⟨hmark, hlast⟩⟩
    rw [List.append_assoc, List.singleton_append]
    exact scan_of_fault hspelled hcontinues (by simp) (scanFrom_foreign hforeign _ rest)
  | @badOpening before rest c hspelled hother =>
    rw [List.append_assoc]
    exact scan_of_fault hspelled (hbracket before _) (by simp) (scanFrom_badOpening hother _ rest)
  | @unfinished before opening hspelled hbegun =>
    rw [byteLength_append]
    rcases hbegun with rfl | rfl
    · exact scan_of_fault hspelled (hbracket before _) (by simp) rfl
    · exact scan_of_fault hspelled (hbracket before _) (by simp) rfl

/-- A text starts with a token or is at fault where it starts. -/
theorem starts_or_verdict {text : List Char} (hnonempty : text ≠ []) :
    (∃ token rest, text = spelling token ++ rest ∧ token.Proper ∧ token.Precedes rest) ∨
      ∃ error, Verdict text (some error) := by
  obtain ⟨c, rest, rfl⟩ := List.exists_cons_of_ne_nil hnonempty
  by_cases hopening : c = '('
  · subst hopening
    cases rest with
    | nil => exact .inr ⟨_, @Verdict.unfinished [] _ spelled_nil (.inl rfl)⟩
    | cons second rest =>
      by_cases hmark : second = '?'
      · subst hmark
        cases rest with
        | nil => exact .inr ⟨_, @Verdict.unfinished [] _ spelled_nil (.inr rfl)⟩
        | cons third rest =>
          by_cases hplain : third = ':'
          · subst hplain
            exact .inl ⟨⟨.openPlain, none, 0⟩, rest, rfl, rfl, nofun⟩
          by_cases hlookahead : third = '='
          · subst hlookahead
            exact .inl ⟨⟨.openLookahead, none, 0⟩, rest, rfl, rfl, nofun⟩
          cases hdigit : third.isDigit with
          | true =>
            exact .inl ⟨⟨.openReference, some third, 0⟩, rest, rfl, ⟨third, rfl, hdigit⟩, nofun⟩
          | false =>
            exact .inr
              ⟨_, @Verdict.badOpening [] rest third spelled_nil ⟨hplain, hlookahead, hdigit⟩⟩
      · exact .inl ⟨⟨.openCapture, none, 0⟩, second :: rest, rfl, rfl,
          fun _ => ⟨second, rest, rfl, hmark⟩⟩
  by_cases hclosing : c = ')'
  · subst hclosing
    exact .inl ⟨⟨.close, none, 0⟩, rest, rfl, rfl, nofun⟩
  by_cases hbar : c = '|'
  · subst hbar
    exact .inl ⟨⟨.bar, none, 0⟩, rest, rfl, rfl, nofun⟩
  by_cases hstar : c = '*'
  · subst hstar
    exact .inl ⟨⟨.star, none, 0⟩, rest, rfl, rfl, nofun⟩
  cases hletter : isLetter c with
  | true => exact .inl ⟨⟨.letter, some c, 0⟩, rest, rfl, ⟨c, rfl, hletter⟩, nofun⟩
  | false =>
    have hforeign : Foreign c := ⟨hletter, by simp [hopening, hclosing, hbar, hstar]⟩
    exact .inr ⟨_, @Verdict.foreign [] rest c spelled_nil hforeign (by simp)⟩

/-- A token before a text with something in it leaves the sort of the text as it is. -/
theorem Verdict.cons {token : Token} {text : List Char} {verdict : Option ScanError}
    (hverdict : Verdict text verdict) (hproper : token.Proper) (hprecedes : token.Precedes text)
    (hnonempty : text ≠ []) : ∃ later, Verdict (token.spelling ++ text) later := by
  cases hverdict with
  | empty => exact absurd rfl hnonempty
  | spelled _ hspelled hclosed =>
    have hlast := getLast?_spelling_append token hnonempty
    exact ⟨none, .spelled (by simp [hnonempty]) (hspelled.cons hproper) (hlast ▸ hclosed)⟩
  | @foreign before rest c hspelled hforeign hapart =>
    have hlater : ¬(c = '?' ∧ (token.spelling ++ before).getLast? = some '(') := by
      rintro ⟨hmark, hlast⟩
      cases before with
      | nil =>
        -- The token itself ends in the bracket, so what follows it is not a question mark.
        rw [List.append_nil] at hlast
        obtain ⟨_, _, heq, hother⟩ := hprecedes (hproper.getLast?_spelling.mp hlast)
        cases heq
        exact hother hmark
      | cons first before =>
        rw [getLast?_spelling_append token (by simp)] at hlast
        exact hapart ⟨hmark, hlast⟩
    rw [← List.append_assoc, ← List.append_assoc]
    exact ⟨_, .foreign (hspelled.cons hproper) hforeign hlater⟩
  | badOpening hspelled hother =>
    rw [← List.append_assoc, ← List.append_assoc]
    exact ⟨_, .badOpening (hspelled.cons hproper) hother⟩
  | unfinished hspelled hbegun =>
    rw [← List.append_assoc]
    exact ⟨_, .unfinished (hspelled.cons hproper) hbegun⟩

/-- Every text is of some sort. -/
theorem exists_verdict (text : List Char) : ∃ verdict, Verdict text verdict := by
  -- Each token takes at least one character, so the rest is shorter than the text.
  induction hlength : text.length using Nat.strongRecOn generalizing text with
  | ind length ih =>
    by_cases hempty : text = []
    · subst hempty
      exact ⟨_, .empty⟩
    rcases starts_or_verdict hempty with ⟨token, rest, rfl, hproper, hprecedes⟩ | ⟨error, hverdict⟩
    · obtain ⟨c, others, hspelling, -⟩ := hproper.head_spelling
      by_cases hrest : rest = []
      · subst hrest
        have hclosed : (token.spelling ++ []).getLast? ≠ some '(' := by
          intro hlast
          rw [List.append_nil] at hlast
          obtain ⟨_, _, heq, _⟩ := hprecedes (hproper.getLast?_spelling.mp hlast)
          cases heq
        exact ⟨none, .spelled hempty (spelled_nil.cons hproper) hclosed⟩
      · have hshorter : rest.length < length := by
          rw [← hlength, hspelling, List.length_append, List.length_cons]
          omega
        obtain ⟨verdict, hverdict⟩ := ih rest.length hshorter rest rfl
        exact hverdict.cons hproper hprecedes hrest
    · exact ⟨some error, hverdict⟩

/-- Every text is of exactly one sort: empty, spelled by tokens, or faulty in one of three ways at
one place. The sort decides whether the text is cut into tokens and, if not, the error with its
character and offset. -/
theorem scan_delivers_verdict (text : String) :
    (∃! verdict, Verdict text.toList verdict) ∧
      ∀ verdict, Verdict text.toList verdict → Delivers (scan text) verdict := by
  have hdelivers : ∀ verdict, Verdict text.toList verdict → Delivers (scan text) verdict := by
    intro verdict hverdict
    have hscan := hverdict.delivers
    rwa [String.ofList_toList] at hscan
  obtain ⟨verdict, hverdict⟩ := exists_verdict text.toList
  refine ⟨⟨verdict, hverdict, fun other hother => ?_⟩, hdelivers⟩
  exact (hdelivers other hother).unique (hdelivers verdict hverdict)

/-- A letter beyond ASCII after the bracket of a capture group, which itself is spelled by a
token. -/
theorem scan_delivers_verdict_accented :
    Verdict ['(', 'é', '?'] (some (.unexpectedChar 'é' 1)) ∧
      Delivers (scan "(é?") (some (.unexpectedChar 'é' 1)) := by
  have hbracket : Proper ⟨.openCapture, none, 0⟩ := rfl
  have hverdict : Verdict ['(', 'é', '?'] (some (.unexpectedChar 'é' 1)) :=
    .foreign (spelled_nil.cons hbracket) ⟨by decide, by decide⟩ (by decide)
  exact ⟨hverdict, (scan_delivers_verdict "(é?").2 _ hverdict⟩

end Token

end PatternGrammar

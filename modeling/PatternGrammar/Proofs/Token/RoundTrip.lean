import PatternGrammar.Token.Spelling

/-!
# Scanning and spelling

A scan cuts a text into tokens that spell the text again, each at the offset where its spelling
starts, and every list of proper tokens is found again in its spelling. An opening bracket starts
four kinds of token and is told apart by what follows it. No spelling starts with a question mark,
so a capture group is mistaken for no other opening, and it is lost only at the end of a text.
-/

namespace PatternGrammar

/-- A result after a function is a value exactly if the result before it is one. -/
theorem map_eq_ok {ε α β : Type} {f : α → β} {result : Except ε α} {value : β} :
    result.map f = .ok value ↔ ∃ inner, result = .ok inner ∧ value = f inner := by
  cases result with
  | error error => exact ⟨nofun, fun ⟨_, heq, _⟩ => nomatch heq⟩
  | ok inner =>
    constructor
    · intro heq
      cases heq
      exact ⟨inner, rfl, rfl⟩
    · rintro ⟨_, hinner, rfl⟩
      cases hinner
      rfl

/-- A letter is one byte long. -/
theorem utf8Size_of_isLetter {c : Char} (hletter : isLetter c = true) : c.utf8Size = 1 := by
  have hrange : 'a' ≤ c ∧ c ≤ 'z' := by simpa [isLetter] using hletter
  have hlast : c.toNat ≤ 'z'.toNat := hrange.2
  have hvalue : 'z'.toNat = 122 := rfl
  refine Char.utf8Size_eq_one_iff.mpr ?_
  show c.toNat ≤ 127
  omega

/-- A digit is one byte long. -/
theorem utf8Size_of_isDigit {c : Char} (hdigit : c.isDigit = true) : c.utf8Size = 1 := by
  have hrange := Char.isDigit_iff_toNat.mp hdigit
  have hnine : '9'.toNat = 57 := rfl
  refine Char.utf8Size_eq_one_iff.mpr ?_
  show c.toNat ≤ 127
  omega

namespace Token

/-- What may follow a token: after a capture group there is a character, and not a question mark. -/
def Precedes (token : Token) (rest : List Char) : Prop :=
  token.kind = .openCapture → ∃ c others, rest = c :: others ∧ c ≠ '?'

/-- A proper token is spelled by some text, and not one that starts with a question mark. -/
theorem Proper.head_spelling {token : Token} (hproper : token.Proper) :
    ∃ c others, token.spelling = c :: others ∧ c ≠ '?' := by
  obtain ⟨kind, payload, offset⟩ := token
  cases kind with
  | letter =>
    obtain ⟨c, rfl, hletter⟩ := hproper
    refine ⟨c, [], rfl, ?_⟩
    rintro rfl
    exact absurd hletter (by decide)
  | _ => exact ⟨_, _, rfl, by decide⟩

/-- The spelling of a proper token is scanned as that token, whatever may follow it. -/
theorem scanFrom_spelling {token : Token} {rest : List Char} (hproper : token.Proper)
    (hprecedes : token.Precedes rest) :
    scanFrom token.offset (token.spelling ++ rest) =
      (scanFrom (token.offset + byteLength token.spelling) rest).map (token :: ·) := by
  obtain ⟨kind, payload, offset⟩ := token
  cases kind with
  | openCapture =>
    cases hproper
    obtain ⟨c, others, rfl, hother⟩ := hprecedes rfl
    show scanFrom offset ('(' :: c :: others) = _
    rw [scanFrom]
    · rfl
    · exact nofun
    · intro heq
      cases heq
      exact hother rfl
    · intro _ _ heq
      cases heq
      exact hother rfl
  | openReference =>
    obtain ⟨digit, rfl, hdigit⟩ := hproper
    have hplain : digit ≠ ':' := by
      rintro rfl
      exact absurd hdigit (by decide)
    have hlookahead : digit ≠ '=' := by
      rintro rfl
      exact absurd hdigit (by decide)
    have hsize : byteLength ['(', '?', digit] = 3 := by
      simp only [byteLength, utf8Size_of_isDigit hdigit]
      rfl
    show scanFrom offset ('(' :: '?' :: digit :: rest) = _
    rw [scanFrom, if_neg hplain, if_neg hlookahead, if_pos hdigit]
    simp only [spelling, Option.toList_some, hsize]
  | letter =>
    obtain ⟨c, rfl, hletter⟩ := hproper
    have hsize : byteLength [c] = 1 := by
      simp only [byteLength, utf8Size_of_isLetter hletter]
    have hother : ∀ special, isLetter special = false → c ≠ special := by
      rintro special hspecial rfl
      rw [hletter] at hspecial
      cases hspecial
    have hopening := hother '(' (by decide)
    show scanFrom offset (c :: rest) = _
    rw [scanFrom, if_pos hletter]
    · simp only [spelling, Option.toList_some, hsize]
    · exact fun heq => absurd heq hopening
    · exact fun heq => absurd heq hopening
    · exact fun _ _ heq => absurd heq hopening
    · exact hopening
    · exact hother ')' (by decide)
    · exact hother '|' (by decide)
    · exact hother '*' (by decide)
  | _ =>
    cases hproper
    rfl

/-- A text that can be scanned starts with a proper token. -/
theorem starts_of_scanFrom {offset : Nat} {text : List Char} {tokens : List Token}
    (hnonempty : text ≠ []) (hscan : scanFrom offset text = .ok tokens) :
    ∃ token rest, text = spelling token ++ rest ∧ token.offset = offset ∧ token.Proper ∧
      token.Precedes rest := by
  unfold scanFrom at hscan
  split at hscan
  next => exact absurd rfl hnonempty
  next => cases hscan
  next => cases hscan
  next c rest =>
    split at hscan
    next hplain =>
      subst hplain
      exact ⟨⟨.openPlain, none, offset⟩, rest, rfl, rfl, rfl, nofun⟩
    next =>
      split at hscan
      next hlookahead =>
        subst hlookahead
        exact ⟨⟨.openLookahead, none, offset⟩, rest, rfl, rfl, rfl, nofun⟩
      next =>
        split at hscan
        next hdigit =>
          exact ⟨⟨.openReference, some c, offset⟩, rest, rfl, rfl, ⟨c, rfl, hdigit⟩, nofun⟩
        next => cases hscan
  next rest hsome hmark hopening =>
    refine ⟨⟨.openCapture, none, offset⟩, rest, rfl, rfl, rfl, fun _ => ?_⟩
    obtain ⟨c, others, rfl⟩ := List.exists_cons_of_ne_nil hsome
    refine ⟨c, others, rfl, ?_⟩
    -- A question mark would make it another opening, or one that the text leaves unfinished.
    rintro rfl
    cases others with
    | nil => exact hmark rfl
    | cons second others => exact hopening second others rfl
  next rest => exact ⟨⟨.close, none, offset⟩, rest, rfl, rfl, rfl, nofun⟩
  next rest => exact ⟨⟨.bar, none, offset⟩, rest, rfl, rfl, rfl, nofun⟩
  next rest => exact ⟨⟨.star, none, offset⟩, rest, rfl, rfl, rfl, nofun⟩
  next c rest _ _ _ _ _ _ _ =>
    split at hscan
    next hletter => exact ⟨⟨.letter, some c, offset⟩, rest, rfl, rfl, ⟨c, rfl, hletter⟩, nofun⟩
    next => cases hscan

/-- The tokens do not end in the opening of a capture group. -/
def EndsClosed (tokens : List Token) : Prop :=
  ∀ last, tokens.getLast? = some last → last.kind ≠ .openCapture

/-- What is scanned are proper tokens that spell the text, laid out from the offset. -/
theorem spelled_of_scanFrom {offset : Nat} {text : List Char} {tokens : List Token}
    (hscan : scanFrom offset text = .ok tokens) :
    text = spellings tokens ∧ LaidOut offset tokens ∧ (∀ token ∈ tokens, token.Proper) ∧
      EndsClosed tokens := by
  -- Each token takes at least one character, so the tokens are as good to count on as the text.
  induction tokens generalizing offset text with
  | nil =>
    cases text with
    | nil => exact ⟨rfl, trivial, nofun, nofun⟩
    | cons c rest =>
      obtain ⟨token, others, htext, rfl, hproper, hprecedes⟩ := starts_of_scanFrom (by simp) hscan
      rw [htext, scanFrom_spelling hproper hprecedes] at hscan
      obtain ⟨_, _, heq⟩ := map_eq_ok.mp hscan
      cases heq
  | cons first tokens ih =>
    have hnonempty : text ≠ [] := by
      rintro rfl
      cases hscan
    obtain ⟨token, rest, rfl, rfl, hproper, hprecedes⟩ := starts_of_scanFrom hnonempty hscan
    rw [scanFrom_spelling hproper hprecedes] at hscan
    obtain ⟨others, hrest, heq⟩ := map_eq_ok.mp hscan
    cases heq
    obtain ⟨rfl, hlaidOut, hpropers, hends⟩ := ih hrest
    refine ⟨?_, ⟨rfl, hlaidOut⟩, List.forall_mem_cons.mpr ⟨hproper, hpropers⟩, ?_⟩
    · rw [spellings, spellings, List.flatMap_cons]
    · intro last hlast
      cases tokens with
      | nil =>
        cases hlast
        intro hcapture
        obtain ⟨_, _, heq, _⟩ := hprecedes hcapture
        cases heq
      | cons second tokens => exact hends last hlast

/-- A proper token may stand before the spelling of others if the tokens do not end in the opening
of a capture group. -/
theorem precedes_spellings {token : Token} {tokens : List Token}
    (hpropers : ∀ other ∈ tokens, other.Proper)
    (hends : EndsClosed (token :: tokens)) : token.Precedes (spellings tokens) := by
  intro hcapture
  cases tokens with
  | nil => exact absurd hcapture (hends token rfl)
  | cons second tokens =>
    obtain ⟨c, others, hspelling, hother⟩ := (hpropers second List.mem_cons_self).head_spelling
    refine ⟨c, others ++ spellings tokens, ?_, hother⟩
    rw [spellings, List.flatMap_cons, hspelling]
    rfl

/-- Proper tokens that are laid out from an offset are found again in their spelling. -/
theorem scanFrom_spellings {offset : Nat} {tokens : List Token} (hlaidOut : LaidOut offset tokens)
    (hpropers : ∀ token ∈ tokens, token.Proper) (hends : EndsClosed tokens) :
    scanFrom offset (spellings tokens) = .ok tokens := by
  induction tokens generalizing offset with
  | nil => rfl
  | cons token tokens ih =>
    obtain ⟨rfl, hrest⟩ := hlaidOut
    obtain ⟨hproper, hothers⟩ := List.forall_mem_cons.mp hpropers
    have htail : EndsClosed tokens := by
      intro last hlast
      cases tokens with
      | nil => cases hlast
      | cons second tokens => exact hends last hlast
    have hscan := ih hrest hothers htail
    rw [spellings, List.flatMap_cons, ← spellings,
      scanFrom_spelling hproper (precedes_spellings hothers hends), hscan]
    rfl

/-- A text is scanned into a list of tokens exactly if the list is not empty, its tokens are proper,
spell the text, start where the ones before them end, and do not end in the opening of a capture
group. -/
theorem scan_eq_ok_iff (text : String) (tokens : List Token) :
    scan text = .ok tokens ↔
      tokens ≠ [] ∧ text = String.ofList (spellings tokens) ∧ LaidOut 0 tokens ∧
        (∀ token ∈ tokens, token.Proper) ∧ EndsClosed tokens := by
  unfold scan
  constructor
  · intro hscan
    split at hscan
    next => cases hscan
    next hnonempty =>
      obtain ⟨htext, hlaidOut, hpropers, hends⟩ := spelled_of_scanFrom hscan
      refine ⟨?_, ?_, hlaidOut, hpropers, hends⟩
      · rintro rfl
        exact hnonempty htext
      · rw [← htext, String.ofList_toList]
  · rintro ⟨hsome, rfl, hlaidOut, hpropers, hends⟩
    obtain ⟨token, others, rfl⟩ := List.exists_cons_of_ne_nil hsome
    obtain ⟨c, rest, hspelling, _⟩ := (hpropers token List.mem_cons_self).head_spelling
    have hscan := scanFrom_spellings hlaidOut hpropers hends
    rw [String.toList_ofList]
    split
    next hempty =>
      rw [spellings, List.flatMap_cons, hspelling] at hempty
      cases hempty
    next => exact hscan

end Token

end PatternGrammar

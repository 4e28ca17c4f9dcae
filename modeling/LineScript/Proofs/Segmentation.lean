/-
This file proves that the scanner and the aliases find the same string literals in a text. The
scanner reads a literal to know its characters, and gives up at an escape that it does not know.
The aliases only look for the end of a literal and copy it, whatever stands in it. But in a text
that the scanner reads to its end, the two walk over every literal in the same steps, and outside
of literals no token holds a quote. So the aliases cut such a text at the regions of its string
tokens.
-/

import LineScript.Proofs.Aliased
import LineScript.Proofs.Rendering
import Mathlib.Data.String.Basic

namespace LineScript

open Number Text

/-! ### Slices -/

/-- The part of a text between two byte offsets. -/
def slice (text : String) (start stop : Nat) : String :=
  String.Pos.Raw.extract text ⟨start⟩ ⟨stop⟩

theorem slice_eq {text : String} {front middle back : List Char}
    (same : text.toList = front ++ middle ++ back) :
    slice text (String.utf8Len front) (String.utf8Len front + String.utf8Len middle) =
      String.ofList middle := by
  have whole : text = String.ofList (front ++ middle ++ back) := by
    rw [← same, String.ofList_toList]
  rw [whole]
  exact String.extract_of_valid front middle back

theorem offset_advance (position : Position) (chars : List Char) :
    (position.advance chars).offset = position.offset + String.utf8Len chars := by
  induction chars generalizing position with
  | nil => rfl
  | cons c rest inductionHypothesis =>
    have advanced := inductionHypothesis (position.next c)
    have next : (position.next c).offset = position.offset + c.utf8Size := rfl
    rw [String.utf8Len_cons, ← Nat.add_assoc, Nat.add_right_comm, ← next, ← advanced]
    rfl

/-! ### Texts cut at regions -/

/-- Whether a token is a string literal. -/
def TokenKind.isString : TokenKind → Bool
  | .string _ => true
  | _ => false

/-- The regions of the string literals among tokens, in order. -/
def literalSpans (tokens : List Token) : List Span :=
  (tokens.filter fun token => token.kind.isString).map Token.span

/-- The pieces of a text from an offset on: literals in the given regions, and the stretches before,
between and after them. -/
def cutAt (text : String) : (start : Nat) → List Span → List Piece
  | start, [] => [.code (slice text start text.utf8ByteSize).toList]
  | start, span :: rest =>
    .code (slice text start span.start).toList ::
      .literal (slice text span.start span.stop).toList :: cutAt text span.stop rest

/-! ### Literals -/

theorem Lexeme.cons_eq_ok {c : Char} {length total : Nat} {read : Lexeme (List Char)}
    {chars : List Char} (longer : Lexeme.cons c length read = .ok (chars, total)) :
    ∃ others more, read = .ok (others, more) ∧ total = length + more := by
  match read with
  | .ok (others, more) =>
    cases longer
    exact ⟨others, more, rfl, rfl⟩
  | .error (cause, more) => cases longer

/-- A literal that is read ends for the aliases where it ends for the scanner. -/
theorem piecesFrom_of_stringBody {quote : Char} (quotes : isQuote quote = true)
    {rest chars : List Char} {length : Nat} (read : stringBody quote rest = .ok (chars, length)) :
    ∃ body tail, rest = body ++ tail ∧ length = body.length ∧
      piecesFrom (.literal quote) rest = .literal body :: piecesFrom .code tail := by
  have plain := ne_backslash_of_isQuote quotes
  fun_induction stringBody quote rest generalizing chars length with
  | case1 => cases read
  | case2 rest =>
    cases read
    refine ⟨[quote], rest, rfl, rfl, ?_⟩
    rw [piecesFrom, if_neg plain, if_pos rfl]
  | case3 => cases read
  | case4 letter rest other escaped known inductionHypothesis =>
    obtain ⟨others, more, readRest, rfl⟩ := Lexeme.cons_eq_ok read
    obtain ⟨body, tail, rfl, rfl, pieces⟩ := inductionHypothesis readRest
    refine ⟨'\\' :: letter :: body, tail, rfl, Nat.add_comm _ _, ?_⟩
    rw [piecesFrom, if_pos rfl, piecesFrom, pieces]
    rfl
  | case5 => cases read
  | case6 c rest other unescaped inductionHypothesis =>
    obtain ⟨others, more, readRest, rfl⟩ := Lexeme.cons_eq_ok read
    obtain ⟨body, tail, rfl, rfl, pieces⟩ := inductionHypothesis readRest
    refine ⟨c :: body, tail, rfl, Nat.add_comm _ _, ?_⟩
    rw [piecesFrom, if_neg unescaped, if_neg other, pieces]
    rfl

/-! ### Lexemes without quotes -/

theorem QuoteFree.cons {c : Char} {chars : List Char} (first : isQuote c = false)
    (others : QuoteFree chars) : QuoteFree (c :: chars) :=
  List.forall_mem_cons.mpr ⟨first, others⟩

theorem QuoteFree.append {front back : List Char} (first : QuoteFree front)
    (second : QuoteFree back) : QuoteFree (front ++ back) :=
  List.forall_mem_append.mpr ⟨first, second⟩

/-- The characters of a class without the quotes. -/
theorem isQuote_of_class {holds : Char → Bool} (free : holds '"' = false ∧ holds '\'' = false)
    {c : Char} (member : holds c = true) : isQuote c = false := by
  by_contra quotes
  rcases isQuote_iff.mp (Bool.not_eq_false _ ▸ quotes) with rfl | rfl <;> simp [free] at member

/-- So many characters in front, of which none opens a literal. -/
def PlainFront (length : Nat) (chars : List Char) : Prop :=
  ∃ front tail, chars = front ++ tail ∧ length = front.length ∧ QuoteFree front

theorem PlainFront.zero (chars : List Char) : PlainFront 0 chars :=
  ⟨[], chars, rfl, rfl, List.forall_mem_nil _⟩

theorem PlainFront.cons {c : Char} (plain : isQuote c = false) {length : Nat} {rest : List Char}
    (others : PlainFront length rest) : PlainFront (length + 1) (c :: rest) := by
  obtain ⟨front, tail, rfl, rfl, free⟩ := others
  exact ⟨c :: front, tail, rfl, rfl, .cons plain free⟩

/-- What a number goes on with has no quotes. -/
theorem plainFront_numberTail (isFloat hasExponent : Bool) (chars : List Char) :
    PlainFront (numberTail isFloat hasExponent chars).length chars := by
  have point : isQuote '.' = false := rfl
  have underscore : isQuote '_' = false := rfl
  fun_induction numberTail isFloat hasExponent chars with
  | case1 => exact .zero []
  | case2 _ _ c rest digit inductionHypothesis =>
    exact .cons (isQuote_of_class (by decide) digit) inductionHypothesis
  | case3 _ _ c rest _ isPoint inductionHypothesis =>
    simp only [Bool.and_eq_true, beq_iff_eq] at isPoint
    exact .cons (isPoint.1.1 ▸ point) inductionHypothesis
  | case4 _ _ c rest _ _ isMark _ inductionHypothesis =>
    have mark := ((Bool.and_eq_true _ _).mp isMark).1
    exact .cons (isQuote_of_class (by decide) mark) inductionHypothesis
  | case5 _ _ c _ _ isMark sign digits isSigned _ inductionHypothesis =>
    have mark := ((Bool.and_eq_true _ _).mp isMark).1
    have signed := ((Bool.and_eq_true _ _).mp isSigned).1
    exact .cons (isQuote_of_class (by decide) mark)
      (.cons (isQuote_of_class (by decide) signed) inductionHypothesis)
  | case6 => exact .zero _
  | case7 => exact .zero _
  | case8 _ _ c rest _ _ _ isUnderscore inductionHypothesis =>
    exact .cons (beq_iff_eq.mp isUnderscore ▸ underscore) inductionHypothesis
  | case9 => exact .zero _

/-- A lexeme that is no literal, if it is read at all: behind its first character it takes some of
which none opens a literal. -/
def ReadsPlain (rest : List Char) (outcome : Lexeme TokenKind) : Prop :=
  ∀ kind length, outcome = .ok (kind, length) →
    kind.isString = false ∧ ∃ more, length = more + 1 ∧ PlainFront more rest

namespace ReadsPlain

variable {rest : List Char}

theorem error (failure : ScanCause × Nat) : ReadsPlain rest (.error failure) := by
  intro kind length read
  cases read

theorem symbol (mark : Symbol) : ReadsPlain rest (.ok (.symbol mark, 1)) := by
  intro kind length read
  cases read
  exact ⟨rfl, 0, rfl, .zero rest⟩

theorem symbolPair {second : Char} (plain : isQuote second = false)
    (follows : rest.head? = some second) (mark : Symbol) :
    ReadsPlain rest (.ok (.symbol mark, 2)) := by
  intro kind length read
  cases read
  obtain ⟨tail, rfl⟩ := List.head?_eq_some_iff.mp follows
  exact ⟨rfl, 1, rfl, .cons plain (.zero tail)⟩

theorem twoCharLexeme {second : Char} (plain : isQuote second = false) (long short : Symbol) :
    ReadsPlain rest (LineScript.twoCharLexeme second long short rest) := by
  unfold LineScript.twoCharLexeme
  split
  · exact symbolPair plain ‹_› long
  · exact symbol short

theorem pairLexeme {second : Char} (plain : isQuote second = false) (first : Char)
    (mark : Symbol) : ReadsPlain rest (LineScript.pairLexeme first second mark rest) := by
  unfold LineScript.pairLexeme
  split
  · exact symbolPair plain ‹_› mark
  · exact error _

theorem nameLexeme (first : Char) : ReadsPlain rest (LineScript.nameLexeme first rest) := by
  intro kind length read
  cases read
  refine ⟨?_, _, rfl, rest.takeWhile isNameChar, rest.dropWhile isNameChar,
    List.takeWhile_append_dropWhile.symm, rfl, fun c member => ?_⟩
  · unfold keyword?
    split_ifs <;> rfl
  · exact isQuote_of_class (by decide +kernel) (List.mem_takeWhile_imp member)

theorem numberLexeme (first : Char) : ReadsPlain rest (LineScript.numberLexeme first rest) := by
  intro kind length read
  have front := plainFront_numberTail (first == '.') false rest
  unfold LineScript.numberLexeme at read
  simp only at read
  split at read
  · rename_i found
    cases read
    refine ⟨?_, _, rfl, front⟩
    split_ifs at found
    · obtain ⟨value, -, rfl⟩ := Option.map_eq_some_iff.mp found
      rfl
    · obtain ⟨value, -, rfl⟩ := Option.map_eq_some_iff.mp found
      rfl
  · cases read

end ReadsPlain

/-- Only a quote starts a literal. -/
theorem readsPlain_lexeme {first : Char} (plain : isQuote first = false) (rest : List Char) :
    ReadsPlain rest (lexeme first rest) := by
  fun_cases lexeme first rest with
  | case7 => exact .numberLexeme '.'
  | case9 => exact .twoCharLexeme rfl _ _
  | case10 => exact .twoCharLexeme rfl _ _
  | case11 => exact .twoCharLexeme rfl _ _
  | case12 => exact .twoCharLexeme rfl _ _
  | case13 => exact .twoCharLexeme rfl _ _
  | case14 => exact .pairLexeme rfl _ _
  | case15 => exact .pairLexeme rfl _ _
  | case16 => exact .pairLexeme rfl _ _
  | case17 => cases plain
  | case18 => cases plain
  | case19 _ digit =>
    rw [if_pos digit]
    exact .numberLexeme first
  | case20 _ noDigit starts =>
    rw [if_neg noDigit, if_pos starts]
    exact .nameLexeme first
  | case21 _ noDigit noName =>
    rw [if_neg noDigit, if_neg noName]
    exact .error _
  | _ => exact .symbol _

theorem lexeme_of_isQuote {quote : Char} (quotes : isQuote quote = true) (rest : List Char) :
    lexeme quote rest = stringLexeme quote rest := by
  rcases isQuote_iff.mp quotes with rfl | rfl <;> rfl

/-- A literal that is read is a piece of its own for the aliases as well. -/
theorem piecesFrom_of_lexeme {quote : Char} (quotes : isQuote quote = true) {rest : List Char}
    {kind : TokenKind} {length : Nat} (read : lexeme quote rest = .ok (kind, length)) :
    kind.isString = true ∧ ∃ body tail, rest = body ++ tail ∧ length = body.length + 1 ∧
      piecesFrom .code (quote :: rest) =
        .code [] :: .literal (quote :: body) :: piecesFrom .code tail := by
  rw [lexeme_of_isQuote quotes, stringLexeme] at read
  split at read
  · rename_i chars taken readBody
    cases read
    obtain ⟨body, tail, same, rfl, pieces⟩ := piecesFrom_of_stringBody quotes readBody
    refine ⟨rfl, body, tail, same, rfl, ?_⟩
    rw [piecesFrom, if_pos quotes, pieces]
    rfl
  · cases read

/-! ### The walk over a text -/

/-- Where a walk over a text has come to: behind the last literal and a stretch without one, with
the rest still to come. -/
structure Reached (text : String) (done stretch rest : List Char) (position : Position) : Prop where
  whole : text.toList = done ++ stretch ++ rest
  free : QuoteFree stretch
  offset : position.offset = String.utf8Len (done ++ stretch)

namespace Reached

variable {text : String} {done stretch taken rest : List Char} {position : Position}

/-- Characters that open no literal go to the stretch. -/
theorem plain (reached : Reached text done stretch (taken ++ rest) position)
    (free : QuoteFree taken) :
    Reached text done (stretch ++ taken) rest (position.advance taken) where
  whole := by rw [reached.whole, List.append_assoc, List.append_assoc, List.append_assoc]
  free := reached.free.append free
  offset := by
    rw [offset_advance, reached.offset, ← String.utf8Len_append, List.append_assoc]

theorem parts (reached : Reached text done stretch (taken ++ rest) position) :
    text.toList = done ++ stretch ++ taken ++ rest :=
  reached.whole.trans (List.append_assoc _ _ _).symm

/-- Behind a literal a new stretch begins. -/
theorem literal (reached : Reached text done stretch (taken ++ rest) position) :
    Reached text (done ++ stretch ++ taken) [] rest (position.advance taken) where
  whole := by rw [reached.parts, List.append_nil]
  free := List.forall_mem_nil _
  offset := by rw [offset_advance, reached.offset, ← String.utf8Len_append, List.append_nil]

theorem slice_stretch (reached : Reached text done stretch rest position) :
    slice text (String.utf8Len done) position.offset = String.ofList stretch := by
  rw [reached.offset, String.utf8Len_append]
  exact slice_eq reached.whole

/-- At the end of a text the stretch is its last piece. -/
theorem cutAt_nil (reached : Reached text done stretch [] position) :
    cutAt text (String.utf8Len done) [] = [.code stretch] := by
  have ends : position.offset = text.utf8ByteSize := by
    rw [reached.offset, ← String.utf8Len_toList, reached.whole, List.append_nil]
  rw [cutAt, ← ends, reached.slice_stretch, String.toList_ofList]

/-- In front of a literal the stretch is a piece, and the literal is the next. -/
theorem cutAt_literal (reached : Reached text done stretch (taken ++ rest) position)
    (spans : List Span) :
    cutAt text (String.utf8Len done) (position.cover taken :: spans) =
      .code stretch :: .literal taken ::
        cutAt text (String.utf8Len (done ++ stretch ++ taken)) spans := by
  have start : (position.cover taken).start = position.offset := rfl
  have stop : (position.cover taken).stop =
      String.utf8Len (done ++ stretch) + String.utf8Len taken := by
    rw [← reached.offset, ← offset_advance]
    rfl
  have literal : slice text position.offset (position.cover taken).stop = String.ofList taken := by
    rw [stop, reached.offset]
    exact slice_eq reached.parts
  rw [cutAt, start, reached.slice_stretch, literal, String.toList_ofList, String.toList_ofList,
    stop, ← String.utf8Len_append]

end Reached

/-- A walk that comes to its end has read the lexeme in front and all behind it. -/
theorem tokensFrom_eq_ok_cons {first : Char} {more tail : List Char} {kind : TokenKind}
    {position stop : Position} {tokens : List Token} (noGap : isGap first = false)
    (read : lexeme first (more ++ tail) = .ok (kind, more.length + 1))
    (walked : tokensFrom 0 position (first :: (more ++ tail)) = .ok (tokens, stop)) :
    ∃ others, tokensFrom 0 (position.advance (first :: more)) tail = .ok (others, stop) ∧
      tokens = ⟨kind, position.cover (first :: more)⟩ :: others := by
  rw [tokensFrom_read noGap read] at walked
  split at walked
  · cases walked
  · rename_i others ended goesOn
    cases walked
    exact ⟨others, goesOn, rfl⟩

theorem literalSpans_cons_string {token : Token} (isString : token.kind.isString = true)
    (tokens : List Token) : literalSpans (token :: tokens) = token.span :: literalSpans tokens := by
  rw [literalSpans, List.filter_cons, if_pos isString, List.map_cons, literalSpans]

theorem literalSpans_cons_other {token : Token} (other : token.kind.isString = false)
    (tokens : List Token) : literalSpans (token :: tokens) = literalSpans tokens := by
  rw [literalSpans, List.filter_cons, if_neg (Bool.eq_false_iff.mp other), literalSpans]

/-- The pieces of what is left of a text are cut at its string tokens. -/
theorem piecesFrom_eq_cutAt {text : String} {done stretch rest : List Char}
    {position stop : Position} {tokens : List Token}
    (reached : Reached text done stretch rest position)
    (walked : tokensFrom 0 position rest = .ok (tokens, stop)) :
    piecesFrom .code (stretch ++ rest) =
      cutAt text (String.utf8Len done) (literalSpans tokens) := by
  have shorter {c : Char} (body tail : List Char) : tail.length < (c :: (body ++ tail)).length := by
    rw [List.length_cons, List.length_append]
    omega
  -- A lexeme takes several characters at once, so the induction is on how many are left.
  induction size : rest.length using Nat.strongRecOn
    generalizing done stretch rest position tokens with
  | ind size inductionHypothesis =>
    subst size
    cases rest with
    | nil =>
      rw [tokensFrom] at walked
      obtain ⟨rfl, rfl⟩ := Prod.mk.inj (Except.ok.inj walked)
      rw [piecesFrom_code reached.free rfl, literalSpans, List.filter_nil, List.map_nil,
        reached.cutAt_nil, List.append_nil]
    | cons c rest =>
      by_cases gap : isGap c = true
      · have plain : QuoteFree [c] :=
          .cons (isQuote_of_class (by decide) gap) (List.forall_mem_nil _)
        rw [tokensFrom, if_pos gap] at walked
        have later := inductionHypothesis _ (Nat.lt_succ_self _) (reached.plain plain) walked rfl
        rw [List.append_assoc] at later
        exact later
      · have noGap := Bool.eq_false_iff.mpr gap
        cases read : lexeme c rest with
        | error failure =>
          rw [tokensFrom, noGap, read] at walked
          cases walked
        | ok outcome =>
          obtain ⟨kind, length⟩ := outcome
          by_cases quotes : isQuote c = true
          · obtain ⟨isString, body, tail, rfl, rfl, pieces⟩ := piecesFrom_of_lexeme quotes read
            obtain ⟨others, goesOn, rfl⟩ := tokensFrom_eq_ok_cons noGap read walked
            have before : Reached text done stretch ((c :: body) ++ tail) position := reached
            have later := inductionHypothesis _ (shorter body tail) before.literal goesOn rfl
            rw [piecesFrom_code reached.free pieces, List.append_nil,
              literalSpans_cons_string isString, before.cutAt_literal, ← later, List.nil_append]
          · have first := Bool.eq_false_iff.mpr quotes
            obtain ⟨other, more, rfl, body, tail, rfl, rfl, free⟩ :=
              readsPlain_lexeme first rest kind length read
            obtain ⟨others, goesOn, rfl⟩ := tokensFrom_eq_ok_cons noGap read walked
            have before : Reached text done stretch ((c :: body) ++ tail) position := reached
            have later := inductionHypothesis _ (shorter body tail)
              (before.plain (.cons first free)) goesOn rfl
            rw [List.append_assoc] at later
            rw [literalSpans_cons_other other]
            exact later

/-! ### Aliases around literals -/

/-- A text with its aliases replaced as if it had no literals. -/
def replaceAliases (aliases : Table String) (text : String) : String :=
  String.ofList (substitute (aliasList aliases) text.toList)

/-- A text from an offset on, with what stands in the given regions copied, and the aliases replaced
in each stretch before, between and after them, taken as a text of its own. -/
def replaceAround (aliases : Table String) (text : String) : (start : Nat) → List Span → String
  | start, [] => replaceAliases aliases (slice text start text.utf8ByteSize)
  | start, span :: rest =>
    replaceAliases aliases (slice text start span.start) ++ slice text span.start span.stop ++
      replaceAround aliases text span.stop rest

theorem toList_replaceAround (aliases : Table String) (text : String) (start : Nat)
    (spans : List Span) :
    (replaceAround aliases text start spans).toList =
      (cutAt text start spans).flatMap (Piece.substitute (aliasList aliases)) := by
  induction spans generalizing start with
  | nil =>
    rw [replaceAround, cutAt, List.flatMap_singleton, replaceAliases, String.toList_ofList]
    rfl
  | cons span rest inductionHypothesis =>
    rw [replaceAround, cutAt, String.toList_append, String.toList_append, inductionHypothesis,
      replaceAliases, String.toList_ofList, List.flatMap_cons, List.flatMap_cons, List.append_assoc]
    rfl

/-- In a text that the scanner reads, the aliases in force are replaced around its string tokens:
the source of each is copied as it stands, and each stretch before, between and after them is
treated as a text of its own. -/
theorem applyAliases_around_literals [PatternEngine] {text : String} {stream : TokenStream}
    (scanned : scan text = .ok stream) (aliases : Table String) :
    applyAliases aliases text =
      replaceAround (aliasesInForce aliases) text 0 (literalSpans stream.tokens) := by
  unfold scan at scanned
  split at scanned
  · cases scanned
  · rename_i tokens stop walked
    cases scanned
    have start : Reached text [] [] text.toList .origin := ⟨rfl, List.forall_mem_nil _, rfl⟩
    have pieces := piecesFrom_eq_cutAt start walked
    rw [← String.toList_inj, toList_applyAliases, aliased, toList_replaceAround]
    exact congrArg _ pieces

/-- Literals with either quote, with an escaped quote and with an escaped backslash at their end.
The word `let` stands around them and inside them. -/
def mixedLiterals : String :=
  "let + 'let' + \"ü \\\" let\" + '\\\\' + let"

theorem applyAliases_around_mixedLiterals :
    ∃ stream, scan mixedLiterals = .ok stream ∧
      literalSpans stream.tokens = [⟨6, 11, 1, 7⟩, ⟨14, 25, 1, 15⟩, ⟨28, 32, 1, 28⟩] ∧
      aliasesInForce Settings.standard.aliases = Settings.standard.aliases ∧
      applyAliases Settings.standard.aliases mixedLiterals =
        replaceAround Settings.standard.aliases mixedLiterals 0 (literalSpans stream.tokens) ∧
      applyAliases Settings.standard.aliases mixedLiterals =
        "set + 'let' + \"ü \\\" let\" + '\\\\' + set" := by
  have spans : (scan mixedLiterals).map (fun stream => literalSpans stream.tokens) =
      .ok [⟨6, 11, 1, 7⟩, ⟨14, 25, 1, 15⟩, ⟨28, 32, 1, 28⟩] := by decide +kernel
  have replaced : applyAliases Settings.standard.aliases mixedLiterals =
      "set + 'let' + \"ü \\\" let\" + '\\\\' + set" := by decide +kernel
  have inForce : aliasesInForce Settings.standard.aliases = Settings.standard.aliases :=
    aliasesInForce_of_built (by decide +kernel)
  cases scanned : scan mixedLiterals with
  | error error =>
    rw [scanned] at spans
    cases spans
  | ok stream =>
    rw [scanned] at spans
    have around := applyAliases_around_literals scanned Settings.standard.aliases
    rw [inForce] at around
    exact ⟨stream, rfl, Except.ok.inj spans, inForce, around, replaced⟩

end LineScript

/-
This file describes the walk of the scanner over a text. A walk says which tokens the characters
from a position on give, and which characters stand behind them. A lexeme is settled by the
characters that it takes: behind these the scanner looks only to see that the lexeme ends. So a walk
stays one when what stands behind is cut off, it can be divided between any two of its tokens, and
starting from another position only moves the regions.
-/

import LineScript.Proofs.Segmentation

namespace LineScript

open Number Text

/-! ### Positions -/

theorem Position.advance_append (position : Position) (front back : List Char) :
    position.advance (front ++ back) = (position.advance front).advance back :=
  List.foldl_append

/-! ### Characters that are cut off -/

theorem exists_cons_of_cut {c : Char} {fewer rest : List Char} {length : Nat}
    (cut : fewer <+: c :: rest) (enough : length + 1 ≤ fewer.length) :
    ∃ others, fewer = c :: others ∧ others <+: rest ∧ length ≤ others.length := by
  rcases List.prefix_cons_iff.mp cut with rfl | ⟨others, rfl, cutRest⟩
  · cases enough
  · exact ⟨others, rfl, cutRest, Nat.le_of_succ_le_succ enough⟩

theorem stringBody_of_cut {quote : Char} {rest fewer chars : List Char} {length : Nat}
    (read : stringBody quote rest = .ok (chars, length)) (cut : fewer <+: rest)
    (enough : length ≤ fewer.length) : stringBody quote fewer = .ok (chars, length) := by
  fun_induction stringBody quote rest generalizing fewer chars length with
  | case1 => cases read
  | case2 rest =>
    cases read
    obtain ⟨others, rfl, -, -⟩ := exists_cons_of_cut cut enough
    exact stringBody_quote quote others
  | case3 => cases read
  | case4 letter rest escaped known other inductionHypothesis =>
    obtain ⟨inner, more, readRest, rfl⟩ := Lexeme.cons_eq_ok read
    rw [Nat.add_comm 2 more] at enough
    obtain ⟨_, rfl, cutLetter, fitsLetter⟩ := exists_cons_of_cut cut enough
    obtain ⟨others, rfl, cutRest, fits⟩ := exists_cons_of_cut cutLetter fitsLetter
    rw [stringBody_escape other known, inductionHypothesis readRest cutRest fits, ← readRest]
    exact read
  | case5 => cases read
  | case6 c rest other unescaped inductionHypothesis =>
    obtain ⟨inner, more, readRest, rfl⟩ := Lexeme.cons_eq_ok read
    rw [Nat.add_comm 1 more] at enough
    obtain ⟨others, rfl, cutRest, fits⟩ := exists_cons_of_cut cut enough
    rw [stringBody_plain other unescaped, inductionHypothesis readRest cutRest fits, ← readRest]
    exact read

theorem takeWhile_of_cut {holds : Char → Bool} {rest fewer : List Char} (cut : fewer <+: rest)
    (enough : (rest.takeWhile holds).length ≤ fewer.length) :
    fewer.takeWhile holds = rest.takeWhile holds := by
  induction rest generalizing fewer with
  | nil => rw [List.prefix_nil.mp cut]
  | cons c rest inductionHypothesis =>
    cases fewer with
    | nil =>
      rw [List.length_nil, Nat.le_zero, List.length_eq_zero_iff] at enough
      rw [enough, List.takeWhile_nil]
    | cons first fewer =>
      obtain ⟨rfl, cutRest⟩ := List.cons_prefix_cons.mp cut
      rw [List.takeWhile_cons, List.takeWhile_cons] at *
      split_ifs at *
      · rw [inductionHypothesis cutRest (Nat.le_of_succ_le_succ enough)]
      · rfl

/-! ### Numbers that are cut -/

theorem digitNext_of_cut {fewer rest : List Char} (cut : fewer <+: rest)
    (filled : 0 < fewer.length) : digitNext fewer = digitNext rest := by
  cases fewer with
  | nil => cases filled
  | cons c fewer =>
    obtain ⟨more, rfl⟩ := cut
    rfl

theorem digitNext_eq_false_of_cut {fewer rest : List Char} (cut : fewer <+: rest)
    (noDigit : ¬ digitNext rest = true) : ¬ digitNext fewer = true := by
  cases fewer with
  | nil => exact Bool.false_ne_true
  | cons c fewer =>
    rw [digitNext_of_cut cut (Nat.succ_pos _)]
    exact noDigit

/-- A digit in front belongs to the number, so it is not cut off. -/
theorem digitNext_of_numberTail {isFloat hasExponent : Bool} {fewer rest : List Char}
    (digit : digitNext rest = true) (cut : fewer <+: rest)
    (fits : (numberTail isFloat hasExponent rest).length ≤ fewer.length) :
    digitNext fewer = true := by
  have positive : 0 < (numberTail isFloat hasExponent rest).length := by
    cases rest with
    | nil => cases digit
    | cons c rest =>
      rw [numberTail.eq_def]
      simp only [if_pos (show isAsciiDigit c = true from digit)]
      exact Nat.succ_pos _
  rw [digitNext_of_cut cut (Nat.lt_of_lt_of_le positive fits)]
  exact digit

/-- The rest of a number as it is when characters behind it are cut off: the character that ended it
may be gone. -/
structure NumberTail.Shortens (short whole : NumberTail) : Prop where
  text : short.text = whole.text
  length : short.length = whole.length
  isFloat : short.isFloat = whole.isFloat
  next : short.next = none ∨ short.next = whole.next

namespace NumberTail.Shortens

variable {short whole : NumberTail}

theorem cons (c : Char) (shortens : short.Shortens whole) :
    (NumberTail.cons c short).Shortens (NumberTail.cons c whole) where
  text := congrArg (c :: ·) shortens.text
  length := congrArg (· + 1) shortens.length
  isFloat := shortens.isFloat
  next := shortens.next

theorem skip (shortens : short.Shortens whole) : short.skip.Shortens whole.skip where
  text := shortens.text
  length := congrArg (· + 1) shortens.length
  isFloat := shortens.isFloat
  next := shortens.next

/-- A number that ends at a character ends there as well if less or nothing is left from there. -/
theorem ended {isFloat hasExponent : Bool} {c : Char} {fewer rest : List Char}
    (cut : fewer <+: c :: rest)
    (ends : ∀ others, others <+: rest →
      numberTail isFloat hasExponent (c :: others) = ⟨[], 0, isFloat, some c⟩) :
    (numberTail isFloat hasExponent fewer).Shortens ⟨[], 0, isFloat, some c⟩ := by
  rcases List.prefix_cons_iff.mp cut with rfl | ⟨others, rfl, cutRest⟩
  · rw [numberTail]
    exact ⟨rfl, rfl, rfl, .inl rfl⟩
  · rw [ends others cutRest]
    exact ⟨rfl, rfl, rfl, .inr rfl⟩

end NumberTail.Shortens

theorem numberTail_of_cut (isFloat hasExponent : Bool) {rest fewer : List Char}
    (cut : fewer <+: rest)
    (enough : (numberTail isFloat hasExponent rest).length ≤ fewer.length) :
    (numberTail isFloat hasExponent fewer).Shortens (numberTail isFloat hasExponent rest) := by
  fun_induction numberTail isFloat hasExponent rest generalizing fewer with
  | case1 =>
    rw [List.prefix_nil.mp cut, numberTail]
    exact ⟨rfl, rfl, rfl, .inl rfl⟩
  | case2 isFloat hasExponent c rest digit inductionHypothesis =>
    obtain ⟨others, rfl, cutRest, fits⟩ := exists_cons_of_cut cut enough
    rw [numberTail.eq_def]
    simp only [if_pos digit]
    exact (inductionHypothesis cutRest fits).cons c
  | case3 isFloat hasExponent c rest noDigit isPoint inductionHypothesis =>
    obtain ⟨others, rfl, cutRest, fits⟩ := exists_cons_of_cut cut enough
    rw [numberTail.eq_def]
    simp only [if_neg noDigit, if_pos isPoint]
    exact (inductionHypothesis cutRest fits).cons c
  | case4 isFloat hasExponent c rest noDigit noPoint isMark digits inductionHypothesis =>
    obtain ⟨others, rfl, cutRest, fits⟩ := exists_cons_of_cut cut enough
    have digitsLeft := digitNext_of_numberTail digits cutRest fits
    rw [numberTail.eq_def]
    simp only [if_neg noDigit, if_neg noPoint, if_pos isMark, if_pos digitsLeft]
    exact (inductionHypothesis cutRest fits).cons c
  | case5 isFloat hasExponent c noDigit noPoint isMark sign digits isSigned noDigits
      inductionHypothesis =>
    obtain ⟨_, rfl, cutSign, fitsSign⟩ := exists_cons_of_cut cut enough
    obtain ⟨others, rfl, cutRest, fits⟩ := exists_cons_of_cut cutSign fitsSign
    obtain ⟨signs, digit⟩ := (Bool.and_eq_true _ _).mp isSigned
    have signedLeft : (isSign sign && digitNext others) = true :=
      (Bool.and_eq_true _ _).mpr ⟨signs, digitNext_of_numberTail digit cutRest fits⟩
    have noDigitsLeft : ¬ digitNext (sign :: others) = true := noDigits
    rw [numberTail.eq_def]
    simp only [if_neg noDigit, if_neg noPoint, if_pos isMark, if_neg noDigitsLeft,
      if_pos signedLeft]
    exact ((inductionHypothesis cutRest fits).cons sign).cons c
  | case6 isFloat hasExponent c noDigit noPoint isMark sign digits unsigned noDigits =>
    refine .ended cut fun others cutRest => ?_
    have noDigitsLeft := digitNext_eq_false_of_cut cutRest noDigits
    rw [numberTail.eq_def]
    simp only [if_neg noDigit, if_neg noPoint, if_pos isMark, if_neg noDigitsLeft]
    rcases List.prefix_cons_iff.mp cutRest with rfl | ⟨fewer, rfl, cutDigits⟩
    · rfl
    · have unsignedLeft : ¬ (isSign sign && digitNext fewer) = true := by
        intro isSigned
        obtain ⟨signs, digit⟩ := (Bool.and_eq_true _ _).mp isSigned
        by_cases left : digitNext digits = true
        · exact unsigned ((Bool.and_eq_true _ _).mpr ⟨signs, left⟩)
        · exact digitNext_eq_false_of_cut cutDigits left digit
      simp only [if_neg unsignedLeft]
  | case7 isFloat hasExponent c noDigit noPoint isMark noDigits =>
    refine .ended cut fun others cutRest => ?_
    rw [List.prefix_nil.mp cutRest, numberTail.eq_def]
    simp only [if_neg noDigit, if_neg noPoint, if_pos isMark, if_neg noDigits]
  | case8 isFloat hasExponent c rest noDigit noPoint noMark isUnderscore inductionHypothesis =>
    obtain ⟨others, rfl, cutRest, fits⟩ := exists_cons_of_cut cut enough
    rw [numberTail.eq_def]
    simp only [if_neg noDigit, if_neg noPoint, if_neg noMark, if_pos isUnderscore]
    exact (inductionHypothesis cutRest fits).skip
  | case9 isFloat hasExponent c rest noDigit noPoint noMark noUnderscore =>
    refine .ended cut fun others _ => ?_
    rw [numberTail.eq_def]
    simp only [if_neg noDigit, if_neg noPoint, if_neg noMark, if_neg noUnderscore]

theorem length_numberLexeme {first : Char} {rest : List Char} {kind : TokenKind} {length : Nat}
    (read : numberLexeme first rest = .ok (kind, length)) :
    length = (numberTail (first == '.') false rest).length + 1 := by
  unfold numberLexeme at read
  simp only at read
  split at read
  · cases read
    rfl
  · cases read

/-! ### Settled lexemes -/

/-- A way to read a lexeme behind its first character that gives the same when characters behind the
lexeme are cut off. -/
def Settled (read : List Char → Lexeme TokenKind) : Prop :=
  ∀ ⦃rest fewer : List Char⦄ ⦃kind : TokenKind⦄ ⦃length : Nat⦄, read rest = .ok (kind, length) →
    fewer <+: rest → length ≤ fewer.length + 1 → read fewer = .ok (kind, length)

namespace Settled

theorem twoCharLexeme (second : Char) (long short : Symbol) :
    Settled (LineScript.twoCharLexeme second long short) := by
  intro rest fewer kind length read cut enough
  unfold LineScript.twoCharLexeme at read ⊢
  split at read
  · rename_i follows
    cases read
    obtain ⟨others, rfl⟩ := List.head?_eq_some_iff.mp follows
    obtain ⟨others, rfl, -, -⟩ := exists_cons_of_cut cut (Nat.le_of_succ_le_succ enough)
    rw [if_pos List.head?_cons]
  · rename_i other
    cases read
    rw [if_neg]
    intro follows
    obtain ⟨others, rfl⟩ := List.head?_eq_some_iff.mp follows
    obtain ⟨more, rfl⟩ := cut
    exact other rfl

theorem pairLexeme (first second : Char) (mark : Symbol) :
    Settled (LineScript.pairLexeme first second mark) := by
  intro rest fewer kind length read cut enough
  unfold LineScript.pairLexeme at read ⊢
  split at read
  · rename_i follows
    cases read
    obtain ⟨others, rfl⟩ := List.head?_eq_some_iff.mp follows
    obtain ⟨others, rfl, -, -⟩ := exists_cons_of_cut cut (Nat.le_of_succ_le_succ enough)
    rw [if_pos List.head?_cons]
  · cases read

theorem nameLexeme (first : Char) : Settled (LineScript.nameLexeme first) := by
  intro rest fewer kind length read cut enough
  cases read
  have taken := takeWhile_of_cut cut (Nat.le_of_succ_le_succ enough)
  unfold LineScript.nameLexeme
  rw [taken]

theorem stringLexeme (quote : Char) : Settled (LineScript.stringLexeme quote) := by
  intro rest fewer kind length read cut enough
  unfold LineScript.stringLexeme at read ⊢
  split at read
  · rename_i readBody
    cases read
    rw [stringBody_of_cut readBody cut (Nat.le_of_succ_le_succ enough)]
  · cases read

theorem numberLexeme (first : Char) : Settled (LineScript.numberLexeme first) := by
  intro rest fewer kind length read cut enough
  rw [length_numberLexeme read] at enough
  obtain ⟨text, taken, isFloat, next⟩ :=
    numberTail_of_cut (first == '.') false cut (Nat.le_of_succ_le_succ enough)
  have noName : ¬ (numberTail (first == '.') false rest).next.any isNameStart = true := by
    intro name
    unfold LineScript.numberLexeme at read
    simp only [if_pos name] at read
    cases read
  have noNameLeft : ¬ (numberTail (first == '.') false fewer).next.any isNameStart = true := by
    rcases next with gone | same
    · rw [gone]
      exact Bool.false_ne_true
    · rw [same]
      exact noName
  unfold LineScript.numberLexeme at read ⊢
  simp only [if_neg noNameLeft, text, taken, isFloat]
  simp only [if_neg noName] at read
  exact read

end Settled

/-- Every lexeme is settled by the characters it takes. -/
theorem settled_lexeme (first : Char) : Settled (lexeme first) := by
  intro rest fewer kind length read cut enough
  revert read
  fun_cases lexeme first rest with
  | case7 digits =>
    intro read
    have fits := length_numberLexeme read ▸ enough
    have digitsLeft := digitNext_of_numberTail digits cut (Nat.le_of_succ_le_succ fits)
    exact (if_pos digitsLeft).trans (Settled.numberLexeme '.' read cut enough)
  | case8 noDigits =>
    exact fun read => (if_neg (digitNext_eq_false_of_cut cut noDigits)).trans read
  | case9 => exact fun read => Settled.twoCharLexeme _ _ _ read cut enough
  | case10 => exact fun read => Settled.twoCharLexeme _ _ _ read cut enough
  | case11 => exact fun read => Settled.twoCharLexeme _ _ _ read cut enough
  | case12 => exact fun read => Settled.twoCharLexeme _ _ _ read cut enough
  | case13 => exact fun read => Settled.twoCharLexeme _ _ _ read cut enough
  | case14 => exact fun read => Settled.pairLexeme _ _ _ read cut enough
  | case15 => exact fun read => Settled.pairLexeme _ _ _ read cut enough
  | case16 => exact fun read => Settled.pairLexeme _ _ _ read cut enough
  | case17 => exact fun read => Settled.stringLexeme _ read cut enough
  | case18 => exact fun read => Settled.stringLexeme _ read cut enough
  | case19 _ digit =>
    rw [if_pos digit, lexeme_of_isAsciiDigit digit]
    exact fun read => Settled.numberLexeme first read cut enough
  | case20 _ noDigit starts =>
    rw [if_neg noDigit, if_pos starts, lexeme_of_isNameStart starts]
    exact fun read => Settled.nameLexeme first read cut enough
  | case21 _ noDigit noName =>
    rw [if_neg noDigit, if_neg noName]
    rintro ⟨⟩
  | _ => exact fun read => read

/-- A lexeme takes characters that stand there. -/
theorem exists_more_of_lexeme {first : Char} {rest : List Char} {kind : TokenKind} {length : Nat}
    (read : lexeme first rest = .ok (kind, length)) :
    ∃ more tail, rest = more ++ tail ∧ length = more.length + 1 := by
  by_cases quotes : isQuote first = true
  · obtain ⟨-, body, tail, same, taken, -⟩ := piecesFrom_of_lexeme quotes read
    exact ⟨body, tail, same, taken⟩
  · obtain ⟨-, more, rfl, front, tail, same, rfl, -⟩ :=
      readsPlain_lexeme (Bool.eq_false_iff.mpr quotes) rest kind length read
    exact ⟨front, tail, same, rfl⟩

/-! ### Walks -/

/-- The tokens that the first characters give from a position on, with the second ones behind
them. -/
inductive Scans : Position → List Char → List Char → List Token → Prop
  | nothing (position : Position) (rest : List Char) : Scans position [] rest []
  | gap {position : Position} {c : Char} {own rest : List Char} {tokens : List Token}
      (gap : isGap c = true) (others : Scans (position.next c) own rest tokens) :
      Scans position (c :: own) rest tokens
  | token {position : Position} {first : Char} {more own rest : List Char} {kind : TokenKind}
      {tokens : List Token} (noGap : isGap first = false)
      (read : lexeme first (more ++ (own ++ rest)) = .ok (kind, more.length + 1))
      (others : Scans (position.advance (first :: more)) own rest tokens) :
      Scans position (first :: (more ++ own)) rest
        (⟨kind, position.cover (first :: more)⟩ :: tokens)

/-- The scanner comes to the end of a text exactly by a walk over it. -/
theorem tokensFrom_eq_ok_iff {position stop : Position} {chars : List Char} {tokens : List Token} :
    tokensFrom 0 position chars = .ok (tokens, stop) ↔
      Scans position chars [] tokens ∧ stop = position.advance chars := by
  constructor
  · intro walked
    -- A lexeme takes several characters at once, so the induction is on how many are left.
    induction size : chars.length using Nat.strongRecOn generalizing chars position tokens with
    | ind size inductionHypothesis =>
      subst size
      cases chars with
      | nil =>
        rw [tokensFrom] at walked
        cases walked
        exact ⟨.nothing _ [], rfl⟩
      | cons c rest =>
        by_cases gap : isGap c = true
        · rw [tokensFrom, if_pos gap] at walked
          obtain ⟨others, ends⟩ := inductionHypothesis _ (Nat.lt_succ_self _) walked rfl
          exact ⟨.gap gap others, ends⟩
        · have noGap := Bool.eq_false_iff.mpr gap
          cases read : lexeme c rest with
          | error failure =>
            rw [tokensFrom, noGap, read] at walked
            cases walked
          | ok outcome =>
            obtain ⟨kind, length⟩ := outcome
            obtain ⟨more, tail, rfl, rfl⟩ := exists_more_of_lexeme read
            obtain ⟨others, goesOn, rfl⟩ := tokensFrom_eq_ok_cons noGap read walked
            have shorter : tail.length < (c :: (more ++ tail)).length := by
              rw [List.length_cons, List.length_append]
              omega
            obtain ⟨walk, ends⟩ := inductionHypothesis _ shorter goesOn rfl
            refine ⟨.token noGap ?_ walk, ?_⟩
            · rw [List.append_nil]
              exact read
            · rw [ends, ← Position.advance_append]
              rfl
  · rintro ⟨walk, rfl⟩
    generalize behind : ([] : List Char) = rest at walk
    induction walk with
    | nothing position rest => rw [tokensFrom]; rfl
    | gap gap _ inductionHypothesis =>
      rw [tokensFrom, if_pos gap]
      exact inductionHypothesis behind
    | token noGap read _ inductionHypothesis =>
      subst behind
      rw [List.append_nil] at read
      rw [tokensFrom_read noGap read, inductionHypothesis rfl, ← Position.advance_append]
      rfl

theorem scan_eq_ok_iff {text : String} {stream : TokenStream} :
    scan text = .ok stream ↔ Scans .origin text.toList [] stream.tokens ∧
      stream.stop = (Position.origin.advance text.toList).cover [] := by
  unfold scan
  constructor
  · intro scanned
    split at scanned
    · cases scanned
    · rename_i walked
      cases scanned
      obtain ⟨walk, rfl⟩ := tokensFrom_eq_ok_iff.mp walked
      exact ⟨walk, rfl⟩
  · rintro ⟨walk, ends⟩
    rw [tokensFrom_eq_ok_iff.mpr ⟨walk, rfl⟩]
    simp only [← ends]

/-! ### Regions that are moved -/

/-- A region in a text with so many bytes and characters more in front. -/
def Span.moved (bytes columns : Nat) (span : Span) : Span :=
  ⟨span.start + bytes, span.stop + bytes, span.line, span.column + columns⟩

/-- A token in a text with so many bytes and characters more in front. -/
def Token.moved (bytes columns : Nat) (token : Token) : Token :=
  ⟨token.kind, token.span.moved bytes columns⟩

/-- A place in a text with so many bytes and characters more in front. -/
def Position.moved (bytes columns : Nat) (position : Position) : Position :=
  ⟨position.offset + bytes, position.column + columns⟩

theorem Position.moved_next (bytes columns : Nat) (position : Position) (c : Char) :
    (position.moved bytes columns).next c = (position.next c).moved bytes columns := by
  simp only [Position.moved, Position.next, Nat.add_right_comm]

theorem Position.moved_advance (bytes columns : Nat) (position : Position) (chars : List Char) :
    (position.moved bytes columns).advance chars =
      (position.advance chars).moved bytes columns := by
  induction chars generalizing position with
  | nil => rfl
  | cons c chars inductionHypothesis =>
    have advanced := inductionHypothesis (position.next c)
    rw [← Position.moved_next] at advanced
    exact advanced

theorem Position.moved_cover (bytes columns : Nat) (position : Position) (chars : List Char) :
    (position.moved bytes columns).cover chars = (position.cover chars).moved bytes columns := by
  rw [Position.cover, Position.moved_advance]
  rfl

theorem Position.advance_eq_moved (position : Position) (chars : List Char) :
    position.advance chars = position.moved (String.utf8Len chars) chars.length := by
  induction chars generalizing position with
  | nil => rfl
  | cons c chars inductionHypothesis =>
    have advanced : position.advance (c :: chars) = (position.next c).advance chars := rfl
    rw [advanced, inductionHypothesis]
    simp only [Position.moved, Position.next, String.utf8Len_cons, List.length_cons,
      Position.mk.injEq]
    omega

/-! ### Parts of walks -/

namespace Scans

variable {position : Position} {own rest : List Char} {tokens : List Token}

/-- A walk stays one when characters behind it are cut off. -/
theorem cut (walk : Scans position own rest tokens) {fewer : List Char} (cut : fewer <+: rest) :
    Scans position own fewer tokens := by
  induction walk with
  | nothing position rest => exact .nothing position fewer
  | gap gap _ inductionHypothesis => exact .gap gap (inductionHypothesis cut)
  | @token position first more own rest kind tokens noGap read _ inductionHypothesis =>
    have cutBehind : more ++ (own ++ fewer) <+: more ++ (own ++ rest) :=
      (List.prefix_append_right_inj more).mpr ((List.prefix_append_right_inj own).mpr cut)
    have enough : more.length + 1 ≤ (more ++ (own ++ fewer)).length + 1 := by
      rw [List.length_append]
      omega
    exact .token noGap (settled_lexeme first read cutBehind enough) (inductionHypothesis cut)

/-- A walk that starts at another position gives the same tokens in other regions. -/
theorem moved_back {bytes columns : Nat}
    (walk : Scans (position.moved bytes columns) own rest tokens) :
    ∃ others, tokens = others.map (Token.moved bytes columns) ∧
      Scans position own rest others := by
  generalize same : position.moved bytes columns = start at walk
  induction walk generalizing position with
  | nothing start rest => exact ⟨[], rfl, .nothing position rest⟩
  | @gap start c own rest tokens gap _ inductionHypothesis =>
    subst same
    obtain ⟨others, rfl, walk⟩ := inductionHypothesis (Position.moved_next _ _ _ c).symm
    exact ⟨others, rfl, .gap gap walk⟩
  | @token start first more own rest kind tokens noGap read _ inductionHypothesis =>
    subst same
    obtain ⟨others, rfl, walk⟩ := inductionHypothesis (Position.moved_advance _ _ _ _).symm
    refine ⟨⟨kind, position.cover (first :: more)⟩ :: others, ?_, .token noGap read walk⟩
    rw [List.map_cons, Position.moved_cover]
    rfl

/-- A walk over two rows of tokens is divided where the last token of the first row ends, or at its
start if there is none. -/
theorem split {front back : List Token} (walk : Scans position own rest (front ++ back)) :
    ∃ first second, own = first ++ second ∧ Scans position first (second ++ rest) front ∧
      Scans (position.advance first) second rest back ∧
      (position.advance first).offset =
        front.getLast?.elim position.offset fun last => last.span.stop := by
  generalize same : front ++ back = tokens at walk
  induction walk generalizing front with
  | nothing position rest =>
    obtain ⟨rfl, rfl⟩ := List.append_eq_nil_iff.mp same
    exact ⟨[], [], rfl, .nothing position _, .nothing position rest, rfl⟩
  | @gap position c own rest tokens gap others inductionHypothesis =>
    cases front with
    | nil =>
      subst same
      exact ⟨[], c :: own, rfl, .nothing position _, .gap gap others, rfl⟩
    | cons token front =>
      obtain ⟨first, second, rfl, walkFront, walkBack, ends⟩ := inductionHypothesis same
      refine ⟨c :: first, second, rfl, .gap gap walkFront, walkBack, ends.trans ?_⟩
      rw [List.getLast?_cons]
      rfl
  | @token position c more own rest kind tokens noGap read others inductionHypothesis =>
    cases front with
    | nil =>
      subst same
      exact ⟨[], c :: (more ++ own), rfl, .nothing position _, .token noGap read others, rfl⟩
    | cons token front =>
      obtain ⟨rfl, sameRest⟩ := List.cons.inj same
      obtain ⟨first, second, rfl, walkFront, walkBack, ends⟩ := inductionHypothesis sameRest
      rw [List.append_assoc] at read
      have passed : position.advance (c :: (more ++ first)) =
          (position.advance (c :: more)).advance first :=
        Position.advance_append position (c :: more) first
      refine ⟨c :: (more ++ first), second, ?_, .token noGap read walkFront, ?_, ?_⟩
      · rw [List.cons_append, List.append_assoc]
      · rw [passed]
        exact walkBack
      · rw [passed, ends, List.getLast?_cons]
        cases front.getLast? with
        | none => rfl
        | some last => rfl

/-- A walk starts with gaps, and then its first token begins. -/
theorem trim {token : Token} (walk : Scans position own rest (token :: tokens)) :
    ∃ gaps chars, own = gaps ++ chars ∧
      Scans (position.advance gaps) chars rest (token :: tokens) ∧
      token.span.start = (position.advance gaps).offset ∧ token.span.line = 1 ∧
      token.span.column = (position.advance gaps).column := by
  generalize same : token :: tokens = row at walk
  induction walk with
  | nothing => cases same
  | @gap position c own rest row gap _ inductionHypothesis =>
    obtain ⟨gaps, chars, rfl, walk, begins⟩ := inductionHypothesis same
    exact ⟨c :: gaps, chars, rfl, walk, begins⟩
  | @token position first more own rest kind others noGap read walk =>
    obtain ⟨rfl, rfl⟩ := List.cons.inj same
    exact ⟨[], _, rfl, .token noGap read walk, rfl, rfl, rfl⟩

end Scans

/-! ### Regions of tokens -/

/-- Tokens that each take up characters, and of which none begins before the one in front ends. -/
structure Orderly (tokens : List Token) : Prop where
  filled : ∀ token ∈ tokens, token.span.start < token.span.stop
  ordered : tokens.Pairwise fun first second => first.span.stop ≤ second.span.start

theorem offset_lt_advance (position : Position) (c : Char) (chars : List Char) :
    position.offset < (position.advance (c :: chars)).offset := by
  rw [offset_advance, String.utf8Len_cons]
  have size := c.utf8Size_pos
  omega

theorem Scans.orderly {position : Position} {own rest : List Char} {tokens : List Token}
    (walk : Scans position own rest tokens) :
    (∀ token ∈ tokens, position.offset ≤ token.span.start) ∧ Orderly tokens := by
  induction walk with
  | nothing => exact ⟨List.forall_mem_nil _, List.forall_mem_nil _, .nil⟩
  | @gap position c own rest tokens _ _ inductionHypothesis =>
    obtain ⟨behind, orderly⟩ := inductionHypothesis
    have passed := Nat.le_of_lt (offset_lt_advance position c [])
    exact ⟨fun token member => Nat.le_trans passed (behind token member), orderly⟩
  | @token position first more own rest kind tokens _ _ _ inductionHypothesis =>
    obtain ⟨behind, orderly⟩ := inductionHypothesis
    have passed := offset_lt_advance position first more
    refine ⟨?_, ?_, ?_⟩
    · exact List.forall_mem_cons.mpr ⟨Nat.le_refl _, fun token member =>
        Nat.le_trans (Nat.le_of_lt passed) (behind token member)⟩
    · exact List.forall_mem_cons.mpr ⟨passed, orderly.filled⟩
    · exact List.pairwise_cons.mpr ⟨behind, orderly.ordered⟩

/-- A region that runs from the start of the first of some tokens to the end of the last. -/
def Covers (span : Span) (tokens : List Token) : Prop :=
  ∃ first last, tokens.head? = some first ∧ tokens.getLast? = some last ∧
    span = ⟨first.span.start, last.span.stop, first.span.line, first.span.column⟩

/-- The characters from the first to the last of some tokens give these tokens, and take up the
region of the tokens. -/
theorem Scans.segment {position : Position} {chars rest : List Char} {before own after : List Token}
    (walk : Scans position chars rest (before ++ (own ++ after))) (filled : own ≠ []) :
    ∃ front middle back, chars = front ++ middle ++ back ∧
      Scans (position.advance front) middle (back ++ rest) own ∧
      Covers ((position.advance front).cover middle) own := by
  obtain ⟨passed, others, rfl, -, walkOthers, -⟩ := walk.split
  cases own with
  | nil => exact absurd rfl filled
  | cons token own =>
    obtain ⟨gaps, left, rfl, walkLeft, start, line, column⟩ := walkOthers.trim
    rw [← Position.advance_append] at walkLeft start column
    have walkRow : Scans _ left rest ((token :: own) ++ after) := walkLeft
    obtain ⟨middle, back, rfl, walkOwn, -, ends⟩ := walkRow.split
    refine ⟨passed ++ gaps, middle, back, ?_, walkOwn, token, (own.getLast?.getD token), rfl,
      List.getLast?_cons, ?_⟩
    · simp only [List.append_assoc]
    · rw [List.getLast?_cons] at ends
      rw [Position.cover, ends, start, line, column]
      rfl

end LineScript

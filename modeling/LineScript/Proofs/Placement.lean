/-
This file says where the tokens of a text stand. A token takes up whole characters, its column
counts the characters in front of it, and its part of the text, scanned alone, gives it back. The
tokens stand one behind the other, and what lies outside of them only separates them.

The walk over a text counts bytes and characters as it goes. Here these counts are compared with the
text itself: with its slices, the number of their characters, and the places at which it may be cut.
-/

import LineScript.Proofs.Walk

namespace LineScript

/-! ### The characters of one token -/

theorem Covers.span_eq {span : Span} {token : Token} (covers : Covers span [token]) :
    span = token.span := by
  obtain ⟨first, last, head, ends, rfl⟩ := covers
  cases head
  cases ends
  rfl

/-- A token of a walk has characters of its own, which take up its region and give this token even
if nothing stands behind them. -/
theorem Scans.exists_own {position : Position} {chars rest : List Char} {tokens : List Token}
    {token : Token} (walk : Scans position chars rest tokens) (member : token ∈ tokens) :
    ∃ front own back, chars = front ++ own ++ back ∧
      token.span = (position.advance front).cover own ∧
      Scans (position.advance front) own [] [token] := by
  obtain ⟨before, after, rfl⟩ := List.append_of_mem member
  have row : Scans position chars rest (before ++ ([token] ++ after)) := walk
  obtain ⟨front, own, back, same, walkOwn, covers⟩ := row.segment (List.cons_ne_nil _ _)
  exact ⟨front, own, back, same, covers.span_eq.symm, walkOwn.cut List.nil_prefix⟩

theorem Span.eq_of_moved_eq {bytes columns : Nat} {first second : Span}
    (moved : first.moved bytes columns = second.moved bytes columns) : first = second := by
  cases first
  cases second
  simpa only [Span.moved, Span.mk.injEq, Nat.add_right_cancel_iff] using moved

/-- Characters that are one token somewhere in a text are this token also as a text of their own. -/
theorem scan_of_single {front own : List Char} {token : Token}
    (walk : Scans (Position.origin.advance front) own [] [token])
    (span : token.span = (Position.origin.advance front).cover own) :
    scan (String.ofList own) = .ok ⟨[⟨token.kind, Position.origin.cover own⟩],
      (Position.origin.advance own).cover []⟩ := by
  rw [Position.advance_eq_moved] at walk span
  obtain ⟨others, single, walkOthers⟩ := walk.moved_back
  obtain ⟨first, rfl, rfl⟩ := List.map_eq_singleton_iff.mp single.symm
  rw [Position.moved_cover] at span
  have same : first.span = Position.origin.cover own := Span.eq_of_moved_eq span
  rw [scan_eq_ok_iff, String.toList_ofList]
  refine ⟨?_, rfl⟩
  show Scans .origin own [] [⟨first.kind, Position.origin.cover own⟩]
  rw [← same]
  exact walkOthers

/-! ### Places of tokens -/

/-- A token that stands in a text: it takes up one or more whole characters, its column is one more
than the number of characters in front of it, and its part of the text, scanned alone, is this token
and nothing else. -/
structure Token.StandsIn (text : String) (token : Token) : Prop where
  filled : token.span.start < token.span.stop
  startsAtChar : (String.Pos.Raw.mk token.span.start).IsValid text
  stopsAtChar : (String.Pos.Raw.mk token.span.stop).IsValid text
  line : token.span.line = 1
  column : token.span.column = (slice text 0 token.span.start).length + 1
  alone : scan (slice text token.span.start token.span.stop) =
    .ok ⟨[⟨token.kind, ⟨0, token.span.stop - token.span.start, 1, 1⟩⟩],
      ⟨token.span.stop - token.span.start, token.span.stop - token.span.start, 1,
        (slice text token.span.start token.span.stop).length + 1⟩⟩

/-- A text may be cut where some of its characters end. -/
theorem isValid_utf8Len {text : String} {front back : List Char}
    (same : text.toList = front ++ back) :
    (String.Pos.Raw.mk (String.utf8Len front)).IsValid text := by
  have whole : text = String.ofList front ++ String.ofList back := by
    rw [← String.ofList_append, ← same, String.ofList_toList]
  have ends : String.utf8Len front = (String.ofList front).utf8ByteSize := by
    rw [← String.utf8Len_toList, String.toList_ofList]
  exact String.Pos.Raw.isValid_iff_exists_append.mpr ⟨_, _, whole, String.Pos.Raw.ext ends⟩

/-- A region by the lengths of the characters in front of it and in it. -/
theorem cover_eq (front own : List Char) :
    (Position.origin.advance front).cover own =
      ⟨String.utf8Len front, String.utf8Len front + String.utf8Len own, 1, front.length + 1⟩ := by
  rw [Position.advance_eq_moved, Position.cover, offset_advance]
  simp only [Position.moved, Position.origin, Nat.zero_add, Nat.add_comm 1]

theorem utf8Len_pos_of_single {position : Position} {own : List Char} {token : Token}
    (walk : Scans position own [] [token]) : 0 < String.utf8Len own := by
  cases own with
  | nil => cases walk
  | cons c own =>
    rw [String.utf8Len_cons]
    exact Nat.add_pos_right _ c.utf8Size_pos

theorem Scans.standsIn {text : String} {tokens : List Token} {token : Token}
    (walk : Scans .origin text.toList [] tokens) (member : token ∈ tokens) :
    token.StandsIn text := by
  obtain ⟨front, own, back, chars, region, single⟩ := walk.exists_own member
  have scanned := scan_of_single single region
  have bounds := region.trans (cover_eq front own)
  have start : token.span.start = String.utf8Len front := congrArg Span.start bounds
  have stop : token.span.stop = String.utf8Len front + String.utf8Len own :=
    congrArg Span.stop bounds
  have before : text.toList = [] ++ front ++ (own ++ back) := by
    rw [chars, List.nil_append, List.append_assoc]
  have through : String.utf8Len (front ++ own) = token.span.stop := by
    rw [stop, String.utf8Len_append]
  have inFront : slice text 0 token.span.start = String.ofList front := by
    have cut := slice_eq before
    rw [String.utf8Len_nil, Nat.zero_add, ← start] at cut
    exact cut
  have inside : slice text token.span.start token.span.stop = String.ofList own := by
    rw [stop, start]
    exact slice_eq chars
  have size : token.span.stop - token.span.start = String.utf8Len own := by
    rw [stop, start, Nat.add_sub_cancel_left]
  refine ⟨?_, ?_, ?_, congrArg Span.line bounds, ?_, ?_⟩
  · rw [stop, start]
    exact Nat.lt_add_of_pos_right (utf8Len_pos_of_single single)
  · rw [start]
    exact isValid_utf8Len before
  · rw [← through]
    exact isValid_utf8Len chars
  · rw [inFront, String.length_ofList]
    exact congrArg Span.column bounds
  · have opening : Position.origin.cover own = ⟨0, String.utf8Len own, 1, 1⟩ := by
      have whole := cover_eq [] own
      rw [String.utf8Len_nil, Nat.zero_add] at whole
      exact whole
    rw [inside, size, scanned, opening, cover_eq, String.length_ofList, String.utf8Len_nil,
      Nat.add_zero]

/-! ### Between the tokens -/

/-- A character that a walk passes separates tokens, or it belongs to one of them. -/
theorem Scans.gap_or_inside {position : Position} {own rest front back : List Char} {c : Char}
    {tokens : List Token} (walk : Scans position own rest tokens)
    (same : own = front ++ c :: back) :
    isGap c = true ∨ ∃ token ∈ tokens, token.span.start ≤ (position.advance front).offset ∧
      (position.advance (front ++ [c])).offset ≤ token.span.stop := by
  induction walk generalizing front with
  | nothing => cases front <;> cases same
  | @gap position first own rest tokens gap _ inductionHypothesis =>
    cases front with
    | nil =>
      cases same
      exact .inl gap
    | cons _ front =>
      obtain ⟨rfl, others⟩ := List.cons.inj same
      exact inductionHypothesis others
  | @token position first more own rest kind tokens _ _ _ inductionHypothesis =>
    have parts : (first :: more) ++ own = front ++ c :: back := same
    have behind (passed : List Char) (others : own = passed ++ c :: back)
        (whole : front = (first :: more) ++ passed) :
        isGap c = true ∨ ∃ token ∈ (⟨kind, position.cover (first :: more)⟩ :: tokens : List Token),
          token.span.start ≤ (position.advance front).offset ∧
            (position.advance (front ++ [c])).offset ≤ token.span.stop := by
      rw [whole, List.append_assoc, Position.advance_append, Position.advance_append]
      refine (inductionHypothesis others).imp_right ?_
      rintro ⟨token, member, inside⟩
      exact ⟨token, List.mem_cons_of_mem _ member, inside⟩
    rcases List.append_eq_append_iff.mp parts with ⟨passed, whole, others⟩ | ⟨left, taken, others⟩
    · exact behind passed others whole
    · cases left with
      | nil => exact behind [] others.symm (by rw [taken, List.append_nil, List.append_nil])
      | cons _ left =>
        obtain ⟨rfl, -⟩ := List.cons.inj others
        refine .inr ⟨_, List.mem_cons_self, ?_, ?_⟩
        · rw [offset_advance]
          exact Nat.le_add_right _ _
        · show _ ≤ (position.advance (first :: more)).offset
          rw [taken, List.append_cons front c left, Position.advance_append position (front ++ [c]),
            offset_advance _ left]
          exact Nat.le_add_right _ _

/-! ### The tokens of a text -/

/-- The tokens of a text stand in it one behind the other, and all characters outside of them are
blanks that separate tokens. Behind them the text ends. -/
theorem scan_tokens_placed {text : String} {stream : TokenStream}
    (scanned : scan text = .ok stream) :
    stream.stop = ⟨text.utf8ByteSize, text.utf8ByteSize, 1, text.length + 1⟩ ∧
      (∀ token ∈ stream.tokens, token.StandsIn text) ∧
      (stream.tokens.Pairwise fun first second => first.span.stop ≤ second.span.start) ∧
      ∀ front c back, text.toList = front ++ c :: back →
        c ∈ [' ', '\t', '\r', '\n'] ∨ ∃ token ∈ stream.tokens,
          token.span.start ≤ String.utf8Len front ∧
            String.utf8Len front + c.utf8Size ≤ token.span.stop := by
  obtain ⟨walk, ends⟩ := scan_eq_ok_iff.mp scanned
  refine ⟨?_, fun token member => walk.standsIn member, walk.orderly.2.ordered, ?_⟩
  · rw [ends, cover_eq, String.utf8Len_toList, String.length_toList, String.utf8Len_nil,
      Nat.add_zero]
  · intro front c back same
    refine (walk.gap_or_inside same).imp ?_ ?_
    · intro gap
      simpa [isGap, or_assoc] using gap
    · rintro ⟨token, member, starts, stops⟩
      rw [offset_advance, String.utf8Len_append, String.utf8Len_cons, String.utf8Len_nil] at stops
      rw [offset_advance] at starts
      simp only [Position.origin, Nat.zero_add] at starts stops
      exact ⟨token, member, starts, stops⟩

/-- A text with letters of two bytes, an escape, a tab and an exponent. -/
def mixedText : String := "'ä\\'' <=\t1_0e-1 ** é"

/-- The tokens of this text. -/
def mixedStream : TokenStream :=
  ⟨[⟨.string "ä'", ⟨0, 6, 1, 1⟩⟩, ⟨.symbol (.comparison .lessEqual), ⟨7, 9, 1, 7⟩⟩,
    ⟨.float 1.0, ⟨10, 16, 1, 10⟩⟩, ⟨.symbol (.arithmetic .power), ⟨17, 19, 1, 17⟩⟩,
    ⟨.name "é", ⟨20, 22, 1, 20⟩⟩], ⟨22, 22, 1, 21⟩⟩

/-- The exponent of this text stands in it. -/
theorem scan_tokens_placed_mixedText :
    scan mixedText = .ok mixedStream ∧
      Token.StandsIn mixedText ⟨.float 1.0, ⟨10, 16, 1, 10⟩⟩ := by
  have scanned : scan mixedText = .ok mixedStream := by decide +kernel
  obtain ⟨-, stands, -, -⟩ := scan_tokens_placed scanned
  exact ⟨scanned, stands _ (by simp [mixedStream])⟩

end LineScript

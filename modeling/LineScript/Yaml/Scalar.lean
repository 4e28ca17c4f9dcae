/-
Scalars, plain or in quotes. A scalar may run over several lines. What stands between two of its
words is a gap: spaces are kept, a single line break becomes a space, and of several line breaks
the first is dropped.
-/

import LineScript.Yaml.Mark

namespace LineScript.Yaml

/-! ### Gaps -/

/-- What was read since the last word of a scalar: nothing, spaces, or line breaks. Spaces and
breaks stand with the latest first. Spaces next to a line break do not count. -/
inductive Gap where
  | nothing
  | spaces (chars : List Char)
  | breaks (first : Char) (others : List Char)
deriving DecidableEq, Repr

namespace Gap

/-- The gap with one more space. -/
def space (c : Char) : Gap → Gap
  | .nothing => .spaces [c]
  | .spaces chars => .spaces (c :: chars)
  | .breaks first others => .breaks first others

/-- The gap with one more line break. -/
def lineBreak (c : Char) : Gap → Gap
  | .breaks first others => .breaks first (c :: others)
  | _ => .breaks c []

/-- Whether the gap holds a line break. -/
def hasBreak : Gap → Bool
  | .breaks _ _ => true
  | _ => false

/-- What the gap stands for between two words. -/
def text : Gap → List Char
  | .nothing => []
  | .spaces chars => chars.reverse
  | .breaks first others =>
    if first ≠ '\n' then first :: others.reverse
    else if others = [] then [' ']
    else others.reverse

end Gap

/-! ### Reading -/

/-- A scalar that was read: its characters, whether a line break follows its last one, and the
place and the characters after it. -/
structure Scanned where
  text : List Char
  endsLine : Bool
  mark : Mark
  rest : List Char

/-- A scalar with some characters in front. -/
def Scanned.append (front : List Char) (scanned : Scanned) : Scanned :=
  { scanned with text := front ++ scanned.text }

/-- The rest of a scalar in quotes, up to the quote that closes it. A single quote inside single
quotes is written twice. Escapes are not read, and no marker of a document may stand inside. -/
def quotedRest (quote : Char) (gap : Gap) (mark : Mark) : List Char → Option Scanned
  | [] => none
  | c :: rest =>
    if markerNext mark (c :: rest) then none
    else if isSpace c then quotedRest quote (gap.space c) (mark.next c) rest
    else if isBreak c then quotedRest quote (gap.lineBreak c) (mark.newLine c) rest
    else if c = quote then
      match rest with
      | second :: others =>
        if quote = '\'' && second = '\'' then
          (quotedRest quote .nothing ((mark.next c).next second) others).map
            (Scanned.append (gap.text ++ ['\'']))
        else some ⟨gap.text, false, mark.next c, rest⟩
      | [] => some ⟨gap.text, false, mark.next c, []⟩
    else if quote = '"' && c = '\\' then none
    else (quotedRest quote .nothing (mark.next c) rest).map (Scanned.append (gap.text ++ [c]))

/-- Whether a plain scalar may start here. -/
def startsPlain (flow : Bool) (c : Char) (rest : List Char) : Bool :=
  if c == '-' then !gapNext rest
  else if c == '?' || c == ':' then !flow && !gapNext rest
  else !isSpace c && !isBreak c && !isFlowMark c && !"#&*!|>'\"%@`".toList.contains c

/-- Whether a character ends a plain scalar: a colon before a gap does, and in a flow collection
its brackets, braces and commas. -/
def endsPlain (flow : Bool) (c : Char) (rest : List Char) : Bool :=
  (c == ':' && gapNext rest) || (flow && isFlowMark c)

/-- Whether a colon stands where none may: in a flow collection, before one of its marks. -/
def isStrayColon (flow : Bool) (c : Char) (rest : List Char) : Bool :=
  flow && c == ':' && rest.head?.any fun next => isFlowMark next || next == '?'

/-- The rest of a plain scalar. It goes on over lines that are indented by at least `indent`, in
flow collections over all lines; a tab may not take part in that indentation. After a gap a
comment ends it, and so does the marker of a document. The gap at its end is taken, but is no part
of it. -/
def plainRest (flow : Bool) (indent : Nat) (gap : Gap) (mark : Mark) :
    List Char → Option Scanned
  | [] => some ⟨[], gap.hasBreak, mark, []⟩
  | c :: rest =>
    if isSpace c then
      if c = '\t' && gap.hasBreak && mark.column < indent then none
      else plainRest flow indent (gap.space c) (mark.next c) rest
    else if isBreak c then plainRest flow indent (gap.lineBreak c) (mark.newLine c) rest
    else if markerNext mark (c :: rest) then some ⟨[], gap.hasBreak, mark, c :: rest⟩
    else if gap ≠ .nothing ∧ (c = '#' ∨ (!flow && mark.column < indent)) then
      some ⟨[], gap.hasBreak, mark, c :: rest⟩
    else if isStrayColon flow c rest then none
    else if endsPlain flow c rest then some ⟨[], gap.hasBreak, mark, c :: rest⟩
    else
      (plainRest flow indent .nothing (mark.next c) rest).map (Scanned.append (gap.text ++ [c]))

end LineScript.Yaml

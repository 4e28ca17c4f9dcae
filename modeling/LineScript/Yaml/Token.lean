/-
The tokens of a document. Block collections have no brackets: indentation opens and closes them,
and tokens for that are put in here. A key is known for one only when its colon comes, so the
token that announces it is put in front of it then. Such a key has to stand on one line and may
take up 1024 bytes at most. Reading gives no reason for a failure, so its result is an `Option`.
-/

import LineScript.Yaml.Scalar

namespace LineScript.Yaml

/-- A token. -/
inductive Token where
  | documentStart
  | documentEnd
  | blockListStart
  | blockMapStart
  | blockEnd
  | flowListStart
  | flowListEnd
  | flowMapStart
  | flowMapEnd
  | item
  | separator
  | key
  | value
  | scalar (text : String) (plain : Bool)
deriving DecidableEq, Repr

/-! ### State -/

/-- A place where a key may have started: the number of tokens before it, whether a key has to
stand there, and the place in the document. -/
structure Candidate where
  position : Nat
  required : Bool
  mark : Mark
deriving DecidableEq, Repr

/-- Whether it is too late for the colon of a key: it is on a later line, or too far away. -/
def Candidate.isStale (candidate : Candidate) (mark : Mark) : Bool :=
  candidate.mark.line < mark.line || candidate.mark.offset + 1024 < mark.offset

/-- The state of a scan. -/
structure Scanner where
  /-- The place reached. -/
  mark : Mark
  /-- The characters ahead. -/
  rest : List Char
  /-- The tokens so far, the latest first. -/
  tokens : List Token
  /-- One more than the column of the innermost open block collection; zero if none is open. -/
  indent : Nat
  /-- The same for the collections around it, ending with a zero. -/
  outerIndents : List Nat
  /-- Where a key may have started in the innermost collection. -/
  candidate : Option Candidate
  /-- The same for the collections around the open flow collections, one for each of them. -/
  outerCandidates : List (Option Candidate)
  /-- Whether a key may start here. -/
  keyAllowed : Bool

namespace Scanner

/-- The state at the start of a document. -/
def start (chars : List Char) : Scanner where
  mark := .origin
  rest := chars
  tokens := []
  indent := 0
  outerIndents := []
  candidate := none
  outerCandidates := []
  keyAllowed := true

/-- Whether a flow collection is open. -/
def inFlow (scanner : Scanner) : Bool :=
  !scanner.outerCandidates.isEmpty

/-- Adds a token. -/
def emit (token : Token) (scanner : Scanner) : Scanner :=
  { scanner with tokens := token :: scanner.tokens }

/-- Puts a token behind the given number of tokens. -/
def insertToken (position : Nat) (token : Token) (scanner : Scanner) : Scanner :=
  let behind := scanner.tokens.length - position
  { scanner with tokens := scanner.tokens.insertIdx behind token }

/-- Takes one character, which is a token. -/
def takeMark (token : Token) (c : Char) (rest : List Char) (scanner : Scanner) : Scanner :=
  emit token { scanner with mark := scanner.mark.next c, rest }

/-! ### Keys -/

/-- Gives up keys for which it is too late; none if one of them had to be a key. -/
def dropStale (scanner : Scanner) : Option Scanner :=
  let stale (candidate : Candidate) := candidate.isStale scanner.mark
  let fresh (candidate : Option Candidate) := candidate.filter fun found => !stale found
  if (scanner.candidate :: scanner.outerCandidates).any fun candidate =>
      candidate.any fun found => stale found && found.required then none
  else
    some { scanner with
      candidate := fresh scanner.candidate
      outerCandidates := scanner.outerCandidates.map fresh }

/-- Gives up the key that may have started in the innermost collection; none if it had to be
one. -/
def dropCandidate (scanner : Scanner) : Option Scanner :=
  if scanner.candidate.any Candidate.required then none
  else some { scanner with candidate := none }

/-- Remembers that a key may start here. In a block mapping one has to start at the column of the
mapping. -/
def saveCandidate (scanner : Scanner) : Option Scanner :=
  if scanner.keyAllowed then do
    let scanner ← scanner.dropCandidate
    let required := !scanner.inFlow && scanner.indent == scanner.mark.column + 1
    return { scanner with candidate := some ⟨scanner.tokens.length, required, scanner.mark⟩ }
  else some scanner

/-! ### Indentation -/

/-- Closes the block collections that are indented deeper than allowed. -/
def closeDeeper (allowed : Nat) : Nat → List Nat → List Token → Nat × List Nat × List Token
  | indent, [], tokens => (indent, [], tokens)
  | indent, next :: outer, tokens =>
    if allowed < indent then closeDeeper allowed next outer (.blockEnd :: tokens)
    else (indent, next :: outer, tokens)

/-- Closes the block collections that a token may not belong to, as it is not indented far
enough. In flow collections indentation does not count. -/
def closeBlocks (allowed : Nat) (scanner : Scanner) : Scanner :=
  if scanner.inFlow then scanner
  else
    let (indent, outerIndents, tokens) :=
      closeDeeper allowed scanner.indent scanner.outerIndents scanner.tokens
    { scanner with indent, outerIndents, tokens }

/-- Opens a block collection at a column, if the innermost one is not indented so far. The token
for that goes behind the given number of tokens. -/
def openBlock (column position : Nat) (token : Token) (scanner : Scanner) : Scanner :=
  if !scanner.inFlow && scanner.indent < column + 1 then
    insertToken position token
      { scanner with
        indent := column + 1
        outerIndents := scanner.indent :: scanner.outerIndents }
  else scanner

/-! ### Gaps between tokens -/

/-- Goes on to the next token, over spaces, comments and line breaks. A line break makes a key
possible, except in flow collections. Where one is possible in a block, tabs do not separate. The
result is whether a key is allowed, the place and the characters ahead. -/
def skipGap (flow : Bool) :
    (comment keyAllowed : Bool) → Mark → List Char → Bool × Mark × List Char
  | _, keyAllowed, mark, [] => (keyAllowed, mark, [])
  | comment, keyAllowed, mark, c :: rest =>
    if isBreak c then skipGap flow false (keyAllowed || !flow) (mark.newLine c) rest
    else if comment then skipGap flow true keyAllowed (mark.next c) rest
    else if c = ' ' || (c = '\t' && (flow || !keyAllowed)) then
      skipGap flow false keyAllowed (mark.next c) rest
    else if c = byteOrderMark && mark.column = 0 then
      skipGap flow false keyAllowed (mark.next c) rest
    else if c = '#' then skipGap flow true keyAllowed (mark.next c) rest
    else (keyAllowed, mark, c :: rest)

/-- Goes on to the next token. -/
def toToken (scanner : Scanner) : Scanner :=
  let (keyAllowed, mark, rest) :=
    skipGap scanner.inFlow false scanner.keyAllowed scanner.mark scanner.rest
  { scanner with keyAllowed, mark, rest }

/-! ### Tokens -/

/-- Takes the mark that opens a flow collection. -/
def openFlow (token : Token) (c : Char) (rest : List Char) (scanner : Scanner) :
    Option Scanner := do
  let scanner ← scanner.saveCandidate
  return takeMark token c rest
    { scanner with
      candidate := none
      outerCandidates := scanner.candidate :: scanner.outerCandidates
      keyAllowed := true }

/-- Takes the mark that closes a flow collection. -/
def closeFlow (token : Token) (c : Char) (rest : List Char) (scanner : Scanner) :
    Option Scanner := do
  let scanner ← scanner.dropCandidate
  let closed :=
    match scanner.outerCandidates with
    | [] => scanner
    | candidate :: outerCandidates => { scanner with candidate, outerCandidates }
  return takeMark token c rest { closed with keyAllowed := false }

/-- Takes the comma between the parts of a flow collection. -/
def takeSeparator (c : Char) (rest : List Char) (scanner : Scanner) : Option Scanner := do
  let scanner ← scanner.dropCandidate
  return takeMark .separator c rest { scanner with keyAllowed := true }

/-- Takes the dash of an item. In a block it may stand only where a key may. -/
def takeItem (c : Char) (rest : List Char) (scanner : Scanner) : Option Scanner :=
  if !scanner.inFlow && !scanner.keyAllowed then none
  else do
    let opened := scanner.openBlock scanner.mark.column scanner.tokens.length .blockListStart
    let scanner ← opened.dropCandidate
    return takeMark .item c rest { scanner with keyAllowed := true }

/-- Takes the question mark that announces a key. In a block it may stand only where a key
may. -/
def takeKey (c : Char) (rest : List Char) (scanner : Scanner) : Option Scanner :=
  if !scanner.inFlow && !scanner.keyAllowed then none
  else do
    let opened := scanner.openBlock scanner.mark.column scanner.tokens.length .blockMapStart
    let scanner ← opened.dropCandidate
    return takeMark .key c rest { scanner with keyAllowed := !scanner.inFlow }

/-- Takes the colon before a value. What a key may have started with is a key now; without that
the colon of a block stands only where a key may. -/
def takeValue (c : Char) (rest : List Char) (scanner : Scanner) : Option Scanner :=
  match scanner.candidate with
  | some candidate =>
    let opened :=
      (scanner.insertToken candidate.position .key).openBlock candidate.mark.column
        candidate.position .blockMapStart
    some (takeMark .value c rest { opened with candidate := none, keyAllowed := false })
  | none =>
    if !scanner.inFlow && !scanner.keyAllowed then none
    else
      let opened := scanner.openBlock scanner.mark.column scanner.tokens.length .blockMapStart
      some (takeMark .value c rest { opened with keyAllowed := !scanner.inFlow })

/-- Takes a scalar that was read. After a line break a key may start. -/
def takeScalar (plain : Bool) (scanned : Scanned) (scanner : Scanner) : Scanner :=
  emit (.scalar (String.ofList scanned.text) plain)
    { scanner with mark := scanned.mark, rest := scanned.rest, keyAllowed := scanned.endsLine }

/-- Takes the scalar that a quote opens. -/
def takeQuoted (quote : Char) (rest : List Char) (scanner : Scanner) : Option Scanner := do
  let scanner ← scanner.saveCandidate
  let scanned ← quotedRest quote .nothing (scanner.mark.next quote) rest
  return takeScalar false scanned scanner

/-- Takes a plain scalar. -/
def takePlain (c : Char) (rest : List Char) (scanner : Scanner) : Option Scanner := do
  let scanner ← scanner.saveCandidate
  let scanned ← plainRest scanner.inFlow scanner.indent .nothing scanner.mark (c :: rest)
  return takeScalar true scanned scanner

/-- Takes the marker of a document, which closes all block collections. -/
def takeMarker (c : Char) (rest : List Char) (scanner : Scanner) : Option Scanner := do
  let scanner ← (scanner.closeBlocks 0).dropCandidate
  return emit (if c = '-' then .documentStart else .documentEnd)
    { scanner with
      mark := ((scanner.mark.next c).next c).next c
      rest := rest.drop 2
      keyAllowed := false }

/-- Takes the token that starts with this character. -/
def takeToken (c : Char) (rest : List Char) (scanner : Scanner) : Option Scanner :=
  let separated := scanner.inFlow || gapNext rest
  if markerNext scanner.mark (c :: rest) then scanner.takeMarker c rest
  else
    match c with
    | '[' => scanner.openFlow .flowListStart c rest
    | '\x7b' => scanner.openFlow .flowMapStart c rest
    | ']' => scanner.closeFlow .flowListEnd c rest
    | '\x7d' => scanner.closeFlow .flowMapEnd c rest
    | ',' => scanner.takeSeparator c rest
    | '"' => scanner.takeQuoted c rest
    | '\'' => scanner.takeQuoted c rest
    | _ =>
      if c = '-' && gapNext rest then scanner.takeItem c rest
      else if c = '?' && separated then scanner.takeKey c rest
      else if c = ':' && separated then scanner.takeValue c rest
      else if startsPlain scanner.inFlow c rest then scanner.takePlain c rest
      else none

/-- The tokens at the end of a document, where all block collections are closed. -/
def finish (scanner : Scanner) : Option (List Token) :=
  (scanner.closeBlocks 0).dropCandidate.map fun final => final.tokens.reverse

/-- The tokens of a document from a state on. Every token takes at least one character, so a
`fuel` of more than the number of characters is enough. -/
def tokensFrom : (fuel : Nat) → Scanner → Option (List Token)
  | 0, _ => none
  | fuel + 1, scanner => do
    let scanner ← scanner.toToken.dropStale
    let placed := scanner.closeBlocks (scanner.mark.column + 1)
    match placed.rest with
    | [] => placed.finish
    | c :: rest => tokensFrom fuel (← placed.takeToken c rest)

end Scanner

/-- The tokens of a document. A byte order mark at its start does not count. -/
def tokens? (text : String) : Option (List Token) :=
  if text.toList.all isAllowed then
    let chars := unifyBreaks text.toList
    let content := if chars.head? = some byteOrderMark then chars.drop 1 else chars
    (Scanner.start content).tokensFrom (content.length + 1)
  else none

end LineScript.Yaml

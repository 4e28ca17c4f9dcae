/-
The nodes of a document: scalars, lists and mappings. Collections are in block or in flow style;
keys are scalars. What is left out where a value is expected is a plain scalar without text.
-/

import LineScript.Yaml.Token

namespace LineScript.Yaml

/-- A node of a document. -/
inductive Node where
  | scalar (text : String) (plain : Bool)
  | list (items : List Node)
  | map (entries : List (String × Node))

/-- The scalar that stands where nothing is written. -/
def Node.nothing : Node := .scalar "" true

/-- The key that a node is, if it is a scalar. -/
def Node.key? : Node → Option String
  | .scalar text _ => some text
  | _ => none

/-- The tokens that come where an item of a list in block style is left out. -/
def itemStops : List Token := [.item, .blockEnd]

/-- The tokens that come where a key or a value of a mapping in block style is left out. -/
def partStops : List Token := [.key, .value, .blockEnd]

/-- The tokens that come where an item of a list as far out as its key is left out. -/
def looseStops : List Token := [.item, .key, .value, .blockEnd]

/-- The tokens that come where a key of a mapping in flow style is left out. -/
def flowKeyStops : List Token := [.value, .separator, .flowMapEnd]

/-- The tokens that come where a value of a mapping in flow style is left out. -/
def flowValueStops : List Token := [.separator, .flowMapEnd]

/-- Whether one of these tokens comes next. -/
def comesNext (stops : List Token) (tokens : List Token) : Bool :=
  tokens.head?.any stops.contains

mutual

/-- Takes a node. Only where `block` holds may it be a collection in block style, and only where
`loose` holds a list whose dashes are not indented. -/
def node (block loose : Bool) : (fuel : Nat) → List Token → Option (Node × List Token)
  | 0, _ => none
  | fuel + 1, tokens =>
    match tokens with
    | .scalar text plain :: rest => some (.scalar text plain, rest)
    | .flowListStart :: rest => do
      let (items, after) ← flowItems fuel rest
      return (.list items, after)
    | .flowMapStart :: rest => do
      let (entries, after) ← flowEntries fuel rest
      return (.map entries, after)
    | .blockListStart :: rest =>
      if block then do
        let (items, after) ← blockItems fuel rest
        return (.list items, after)
      else none
    | .blockMapStart :: rest =>
      if block then do
        let (entries, after) ← blockEntries fuel rest
        return (.map entries, after)
      else none
    | .item :: _ =>
      if loose then do
        let (items, after) ← looseItems fuel tokens
        return (.list items, after)
      else none
    | _ => none

/-- Takes a node, or nothing where one of these tokens comes. -/
def nodeUnless (stops : List Token) (block loose : Bool) :
    (fuel : Nat) → List Token → Option (Node × List Token)
  | 0, _ => none
  | fuel + 1, tokens =>
    if comesNext stops tokens then some (.nothing, tokens) else node block loose fuel tokens

/-- Takes the items of a list in block style up to its end. -/
def blockItems : (fuel : Nat) → List Token → Option (List Node × List Token)
  | 0, _ => none
  | fuel + 1, tokens =>
    match tokens with
    | .item :: rest => do
      let (first, rest) ← nodeUnless itemStops true false fuel rest
      let (others, after) ← blockItems fuel rest
      return (first :: others, after)
    | .blockEnd :: after => some ([], after)
    | _ => none

/-- Takes the items of a list in block style as far out as its key. Such a list has no end of its
own. -/
def looseItems : (fuel : Nat) → List Token → Option (List Node × List Token)
  | 0, _ => none
  | fuel + 1, tokens =>
    match tokens with
    | .item :: rest => do
      let (first, rest) ← nodeUnless looseStops true false fuel rest
      let (others, after) ← looseItems fuel rest
      return (first :: others, after)
    | after => some ([], after)

/-- Takes the entries of a mapping in block style up to its end. -/
def blockEntries : (fuel : Nat) → List Token → Option (List (String × Node) × List Token)
  | 0, _ => none
  | fuel + 1, tokens =>
    match tokens with
    | .key :: rest => do
      let (left, rest) ← nodeUnless partStops true true fuel rest
      let name ← left.key?
      let (right, rest) ←
        match rest with
        | .value :: rest => nodeUnless partStops true true fuel rest
        | rest => some (.nothing, rest)
      let (others, after) ← blockEntries fuel rest
      return ((name, right) :: others, after)
    | .blockEnd :: after => some ([], after)
    | _ => none

/-- Takes the items of a list in flow style up to its bracket. A comma may follow the last. -/
def flowItems : (fuel : Nat) → List Token → Option (List Node × List Token)
  | 0, _ => none
  | fuel + 1, tokens =>
    match tokens with
    | .flowListEnd :: after => some ([], after)
    | _ => do
      let (first, rest) ← node false false fuel tokens
      match rest with
      | .separator :: rest => do
        let (others, after) ← flowItems fuel rest
        return (first :: others, after)
      | .flowListEnd :: after => return ([first], after)
      | _ => none

/-- Takes an entry of a mapping in flow style. A node that is not announced as a key is one
without a value. -/
def flowEntry : (fuel : Nat) → List Token → Option ((String × Node) × List Token)
  | 0, _ => none
  | fuel + 1, tokens =>
    match tokens with
    | .key :: rest => do
      let (left, rest) ← nodeUnless flowKeyStops false false fuel rest
      let name ← left.key?
      match rest with
      | .value :: rest => do
        let (right, after) ← nodeUnless flowValueStops false false fuel rest
        return ((name, right), after)
      | after => return ((name, .nothing), after)
    | _ => do
      let (left, after) ← node false false fuel tokens
      let name ← left.key?
      return ((name, .nothing), after)

/-- Takes the entries of a mapping in flow style up to its brace. A comma may follow the last. -/
def flowEntries : (fuel : Nat) → List Token → Option (List (String × Node) × List Token)
  | 0, _ => none
  | fuel + 1, tokens =>
    match tokens with
    | .flowMapEnd :: after => some ([], after)
    | _ => do
      let (first, rest) ← flowEntry fuel tokens
      match rest with
      | .separator :: rest => do
        let (others, after) ← flowEntries fuel rest
        return (first :: others, after)
      | .flowMapEnd :: after => return ([first], after)
      | _ => none

end

/-! ### Documents -/

/-- Takes the node of a document. It may be left out. -/
def documentNode (tokens : List Token) : Option (Node × List Token) :=
  let fuel := 3 * tokens.length + 3
  match tokens with
  | [] => some (.nothing, [])
  | [.documentStart] => some (.nothing, [])
  | .documentStart :: rest => nodeUnless [.documentStart, .documentEnd] true false fuel rest
  | _ => node true false fuel tokens

/-- The node of a text that holds one document. Nothing but markers of its end may follow it. -/
def document? (text : String) : Option Node := do
  let tokens ← tokens? text
  let (root, rest) ← documentNode tokens
  if rest.all (· == .documentEnd) then return root else none

end LineScript.Yaml

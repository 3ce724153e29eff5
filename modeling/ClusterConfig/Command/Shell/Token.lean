import ClusterConfig.Command.Shell.Script

/-!
# Tokens of a script

A script is read as words, operators and line breaks. Quotes and backslashes keep characters from their meaning, and a dollar sign
starts what is put in later. Quotes that do not close are a fault at the place where they open.
-/

namespace ClusterConfig.Shell

/-- A token of a script. -/
inductive Token where
  | word (w : Word)
  | operator (sign : String)
  /-- A redirection sign with the number of its stream. -/
  | redirection (stream : Option Nat) (sign : String)
  | newline
  | fault
  deriving DecidableEq, Repr

/-- A blank between words. -/
def isBlank (c : Char) : Bool := c == ' ' || c == '\t'

/-- A character that ends a word. -/
def endsWord (c : Char) : Bool := isBlank c || c == '\n' || "|&;<>()".toList.contains c

/-- A character of a variable's name. -/
def isNameChar (c : Char) : Bool := c.isAlphanum || c == '_'

/-- The text up to the sign that closes it, at most `fuel` characters. Quotes and further pairs of signs inside are kept. -/
def enclosed (opens closes : Char) : Nat → Nat → List Char → Option (List Char × List Char)
  | 0, _, _ => none
  | _ + 1, _, [] => none
  | fuel + 1, depth, '\\' :: c :: cs => (enclosed opens closes fuel depth cs).map fun r => ('\\' :: c :: r.1, r.2)
  | fuel + 1, depth, c :: cs =>
    if c = closes then
      if depth = 0 then some ([], cs) else (enclosed opens closes fuel (depth - 1) cs).map fun r => (c :: r.1, r.2)
    else if c = opens then (enclosed opens closes fuel (depth + 1) cs).map fun r => (c :: r.1, r.2)
    else if c = '\'' then
      let inside := cs.takeWhile (· != '\'')
      (enclosed opens closes fuel depth (cs.drop (inside.length + 1))).map fun r => (c :: inside ++ '\'' :: r.1, r.2)
    else (enclosed opens closes fuel depth cs).map fun r => (c :: r.1, r.2)

/-- The variable that is named between braces, and what becomes of its value. -/
def bracedRule (inside : List Char) : String × ValueRule :=
  match inside with
  | '#' :: c :: cs => (String.ofList (c :: cs), .length)
  | _ =>
    let name := inside.takeWhile isNameChar
    (String.ofList name, match inside.drop name.length with
      | ':' :: '-' :: other => .orElse (String.ofList other)
      | '-' :: other => .orElse (String.ofList other)
      | ':' :: '+' :: other => .insteadOf (String.ofList other)
      | '+' :: other => .insteadOf (String.ofList other)
      | _ => .asIs)

/-- What a dollar sign starts, and what follows; none if it does not close. -/
def dollarAt (isQuoted : Bool) (cs : List Char) : Option (Piece × List Char) :=
  match cs with
  | '(' :: '(' :: rest =>
    (enclosed '(' ')' (rest.length + 1) 0 rest).bind fun (inside, rest) =>
      match rest with
      | ')' :: rest => some (.arithmetic (String.ofList inside) isQuoted, rest)
      | _ => none
  | '(' :: rest =>
    (enclosed '(' ')' (rest.length + 1) 0 rest).map fun (inside, rest) => (.printed (String.ofList inside) isQuoted, rest)
  | '\x7b' :: rest =>
    (enclosed '\x7b' '\x7d' (rest.length + 1) 0 rest).map fun (inside, rest) =>
      let (name, rule) := bracedRule inside
      (.variable name rule isQuoted, rest)
  | c :: rest =>
    if c.isAlpha || c == '_' then
      let name := cs.takeWhile isNameChar
      some (.variable (String.ofList name) .asIs isQuoted, cs.drop name.length)
    else if c.isDigit || "?$#@*!-".toList.contains c then some (.variable (String.singleton c) .asIs isQuoted, rest)
    else some (.text "$", cs)
  | [] => some (.text "$", [])

/-- What a backquote starts, and what follows; none if it does not close. -/
def backquoteAt (isQuoted : Bool) (cs : List Char) : Option (Piece × List Char) :=
  (enclosed '\x60' '\x60' (cs.length + 1) 0 cs).map fun (inside, rest) => (.printed (String.ofList inside) isQuoted, rest)

/-- The pieces between double quotes, at most `fuel` of them, and what follows; none if the quotes do not close. -/
def doubleQuoted : Nat → List Char → Option (Word × List Char)
  | 0, _ => none
  | _ + 1, [] => none
  | _ + 1, '"' :: cs => some ([], cs)
  | fuel + 1, '\\' :: '\n' :: cs => doubleQuoted fuel cs
  | fuel + 1, '\\' :: c :: cs =>
    let kept := if c == '$' || c == '\x60' || c == '"' || c == '\\' then [c] else ['\\', c]
    (doubleQuoted fuel cs).map fun r => (.quoted (String.ofList kept) :: r.1, r.2)
  | fuel + 1, '$' :: cs => do
    let (piece, cs) ← dollarAt true cs
    let (pieces, cs) ← doubleQuoted fuel cs
    return (piece :: pieces, cs)
  | fuel + 1, '\x60' :: cs => do
    let (piece, cs) ← backquoteAt true cs
    let (pieces, cs) ← doubleQuoted fuel cs
    return (piece :: pieces, cs)
  | fuel + 1, c :: cs => (doubleQuoted fuel cs).map fun r => (.quoted (String.singleton c) :: r.1, r.2)

/-- The pieces of a word, at most `fuel` of them, and what follows; none if quotes do not close. -/
def wordAt : Nat → List Char → Option (Word × List Char)
  | 0, _ => none
  | _ + 1, [] => some ([], [])
  | fuel + 1, '\\' :: '\n' :: cs => wordAt fuel cs
  | fuel + 1, '\\' :: c :: cs => (wordAt fuel cs).map fun r => (.quoted (String.singleton c) :: r.1, r.2)
  | _ + 1, ['\\'] => some ([.quoted "\\"], [])
  | fuel + 1, '\'' :: cs =>
    let inside := cs.takeWhile (· != '\'')
    match cs.drop inside.length with
    | [] => none
    | _ :: cs => (wordAt fuel cs).map fun r => (.quoted (String.ofList inside) :: r.1, r.2)
  | fuel + 1, '"' :: cs => do
    let (inside, cs) ← doubleQuoted (cs.length + 1) cs
    let (pieces, cs) ← wordAt fuel cs
    return (.quoted "" :: inside ++ pieces, cs)
  | fuel + 1, '$' :: cs => do
    let (piece, cs) ← dollarAt false cs
    let (pieces, cs) ← wordAt fuel cs
    return (piece :: pieces, cs)
  | fuel + 1, '\x60' :: cs => do
    let (piece, cs) ← backquoteAt false cs
    let (pieces, cs) ← wordAt fuel cs
    return (piece :: pieces, cs)
  | fuel + 1, c :: cs =>
    if endsWord c then some ([], c :: cs)
    else
      let plain := cs.takeWhile fun c => !endsWord c && !"\\'\"$\x60".toList.contains c
      (wordAt fuel (cs.drop plain.length)).map fun r => (.text (String.ofList (c :: plain)) :: r.1, r.2)

/-- The operators, longer ones first. -/
def operators : List String := ["&&", "||", ";;", "|", "&", ";", "(", ")"]

/-- The redirection signs, longer ones first. -/
def redirectionSigns : List String := [">>", ">&", "<&", "<>", ">|", "<<", "<", ">"]

/-- The first of some texts that stands at the start, and what follows. -/
def oneOf? (texts : List String) (cs : List Char) : Option (String × List Char) :=
  (texts.find? fun t => t.toList.isPrefixOf cs).map fun t => (t, cs.drop t.length)

/-- The number of a stream before a redirection sign, and what follows. -/
def streamAt (cs : List Char) : Option Nat × List Char :=
  let digits := cs.takeWhile Char.isDigit
  if digits.isEmpty then (none, cs) else (some (digits.foldl (fun n d => n * 10 + (d.toNat - 48)) 0), cs.drop digits.length)

/-- The tokens of a script, at most `fuel` of them. -/
def tokensUpTo : Nat → List Char → List Token
  | 0, _ => []
  | _ + 1, [] => []
  | fuel + 1, '\\' :: '\n' :: cs => tokensUpTo fuel cs
  | fuel + 1, '\n' :: cs => .newline :: tokensUpTo fuel cs
  | fuel + 1, '#' :: cs => tokensUpTo fuel (cs.dropWhile (· != '\n'))
  | fuel + 1, c :: cs =>
    if isBlank c then tokensUpTo fuel cs
    else
      let (stream, rest) := streamAt (c :: cs)
      match oneOf? redirectionSigns rest with
      | some (sign, rest) => .redirection stream sign :: tokensUpTo fuel rest
      | none =>
        match oneOf? operators (c :: cs) with
        | some (sign, rest) => .operator sign :: tokensUpTo fuel rest
        | none =>
          match wordAt (cs.length + 2) (c :: cs) with
          | some (w, rest) => .word w :: tokensUpTo fuel rest
          | none => [.fault]

/-- The tokens of a script. -/
def tokensOf (script : String) : List Token := tokensUpTo (script.length + 1) script.toList

end ClusterConfig.Shell

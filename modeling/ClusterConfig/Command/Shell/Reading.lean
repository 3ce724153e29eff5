import ClusterConfig.Command.Shell.Token

/-!
# Reading a script

Commands are read line by line: a line, with the lines that its last command needs, is read as a whole before it runs. A word is a
keyword only where a command may start and where it is not quoted.
-/

namespace ClusterConfig.Shell

/-- A script and the tokens after it; none where the tokens make no script. -/
abbrev Read := Option (Script × List Token)

/-- The word as a keyword or name: its text, if no part of it is quoted or put in. -/
def plainText? : Word → Option String
  | [.text s] => some s
  | _ => none

/-- The keyword that a token may be. -/
def keyword? : List Token → Option String
  | .word w :: _ => plainText? w
  | _ => none

/-- The keywords that end a list of commands. -/
def closingKeywords : List String := ["then", "else", "elif", "fi", "do", "done", "esac", "\x7d"]

/-- A list of commands ends here. -/
def closes : List Token → Bool
  | [] => true
  | .operator sign :: _ => sign == ")" || sign == ";;"
  | ts => ((keyword? ts).map closingKeywords.contains).getD false

/-- Tokens after a keyword that has to stand here. -/
def expect (keyword : String) (ts : List Token) : Option (List Token) :=
  if keyword? ts = some keyword then some ts.tail else none

/-- Tokens after line breaks. -/
def skipLines (ts : List Token) : List Token := ts.dropWhile (· == .newline)

/-- The number of a stream that a word names. -/
def streamOf? (w : Word) : Option Nat :=
  (plainText? w).bind fun s => if s.isEmpty then none else
    s.toList.foldlM (fun n c => if c.isDigit then some (n * 10 + (c.toNat - 48)) else none) 0

/-- A redirection at the start of the tokens, and what follows. -/
def redirection? : List Token → Option (Redirection × List Token)
  | .redirection stream sign :: .word w :: rest =>
    match sign with
    | "<" => some (.read w, rest)
    | ">" => some (.write (stream.getD 1) false w, rest)
    | ">|" => some (.write (stream.getD 1) false w, rest)
    | ">>" => some (.write (stream.getD 1) true w, rest)
    | ">&" => (streamOf? w).map fun source => (.copy (stream.getD 1) source, rest)
    | _ => none
  | _ => none

/-- All redirections at the start of the tokens, at most `fuel`, and what follows. -/
def redirections : Nat → List Token → List Redirection × List Token
  | 0, ts => ([], ts)
  | fuel + 1, ts =>
    match redirection? ts with
    | some (r, rest) =>
      let (more, rest) := redirections fuel rest
      (r :: more, rest)
    | none => ([], ts)

/-- The name and the value of a word that assigns one. -/
def assignment? : Word → Option (String × Word)
  | .text s :: pieces =>
    let name := s.toList.takeWhile isNameChar
    match name, s.toList.drop name.length with
    | first :: _, '=' :: value =>
      if first.isDigit then none else some (String.ofList name, .text (String.ofList value) :: pieces)
    | _, _ => none
  | _ => none

/-- The words, assignments and redirections of a simple command, at most `fuel` of them. -/
def simpleUpTo : Nat → List (String × Word) → List Word → List Redirection → List Token → Read
  | 0, _, _, _, _ => none
  | fuel + 1, assigned, words, redirected, ts =>
    let done : Read :=
      if assigned.isEmpty && words.isEmpty && redirected.isEmpty then none
      else some (.simple assigned.reverse words.reverse redirected.reverse, ts)
    match ts with
    | .word w :: rest =>
      match (if words.isEmpty then assignment? w else none) with
      | some a => simpleUpTo fuel (a :: assigned) words redirected rest
      | none => simpleUpTo fuel assigned (w :: words) redirected rest
    | .redirection _ _ :: _ =>
      match redirection? ts with
      | some (r, rest) => simpleUpTo fuel assigned words (r :: redirected) rest
      | none => none
    | .fault :: _ => none
    | .operator "(" :: _ => none
    | _ => done

/-- The words after `in`, up to the end of the command. -/
def wordsUpToEnd : List Token → List Word × List Token
  | .word w :: rest =>
    let (words, rest) := wordsUpToEnd rest
    (w :: words, rest)
  | ts => ([], ts)

/-- The patterns with bars between them, and what follows the parenthesis after them. -/
def patternsUpTo : Nat → List Token → Option (List Word × List Token)
  | 0, _ => none
  | fuel + 1, ts =>
    match ts with
    | .word w :: .operator "|" :: rest => (patternsUpTo fuel rest).map fun r => (w :: r.1, r.2)
    | .word w :: .operator ")" :: rest => some ([w], rest)
    | _ => none

/-- The patterns of a branch, which may be between parentheses. -/
def patternsAt (ts : List Token) : Option (List Word × List Token) :=
  match ts with
  | .operator "(" :: rest => patternsUpTo rest.length rest
  | _ => patternsUpTo ts.length ts

/-- Tokens after the separator that has to end a list of words. -/
def skipSeparator : List Token → List Token
  | .operator ";" :: rest => skipLines rest
  | ts => skipLines ts

/-- A compound command with the redirections after it. -/
def withRedirections (read : Read) : Read :=
  read.map fun (body, ts) =>
    let (rs, ts) := redirections ts.length ts
    (if rs.isEmpty then body else .redirected body rs, ts)

mutual

/-- One command. -/
def readCommand : Nat → List Token → Read
  | 0, _ => none
  | fuel + 1, ts =>
    match ts with
    | .operator "(" :: rest => withRedirections do
      let (body, rest) ← readLines fuel (skipLines rest)
      match rest with
      | .operator ")" :: rest => return (.subshell body, rest)
      | _ => none
    | _ =>
      match keyword? ts with
      | some "\x7b" => withRedirections do
        let (body, rest) ← readLines fuel (skipLines ts.tail)
        return (body, ← expect "\x7d" rest)
      | some "if" => withRedirections (readChoice fuel ts.tail)
      | some "while" => withRedirections (readLoop fuel false ts.tail)
      | some "until" => withRedirections (readLoop fuel true ts.tail)
      | some "for" => withRedirections (readForEach fuel ts.tail)
      | some "case" => withRedirections do
        match ts.tail with
        | .word subject :: rest => readBranches fuel subject (← expect "in" (skipLines rest))
        | _ => none
      | some keyword => if closingKeywords.contains keyword then none else simpleUpTo (ts.length + 1) [] [] [] ts
      | none => simpleUpTo (ts.length + 1) [] [] [] ts

/-- The rest of a choice: condition, body, and what happens otherwise. -/
def readChoice : Nat → List Token → Read
  | 0, _ => none
  | fuel + 1, ts => do
    let (condition, ts) ← readLines fuel (skipLines ts)
    let (body, ts) ← readLines fuel (skipLines (← expect "then" ts))
    match keyword? ts with
    | some "else" => do
      let (otherwise, ts) ← readLines fuel (skipLines ts.tail)
      return (.choice condition body otherwise, ← expect "fi" ts)
    | some "elif" => do
      let (otherwise, ts) ← readChoice fuel ts.tail
      return (.choice condition body otherwise, ts)
    | _ => return (.choice condition body .nothing, ← expect "fi" ts)

/-- The rest of a loop: condition and body. -/
def readLoop : Nat → Bool → List Token → Read
  | 0, _, _ => none
  | fuel + 1, stopAtSuccess, ts => do
    let (condition, ts) ← readLines fuel (skipLines ts)
    let (body, ts) ← readLines fuel (skipLines (← expect "do" ts))
    return (.loop condition body stopAtSuccess, ← expect "done" ts)

/-- The rest of a loop over words: the name, the words and the body. -/
def readForEach : Nat → List Token → Read
  | 0, _ => none
  | fuel + 1, ts => do
    let name ← keyword? ts
    let ts := skipLines ts.tail
    let (words, ts) := if keyword? ts = some "in" then wordsUpToEnd ts.tail else ([], ts)
    let (body, ts) ← readLines fuel (skipLines (← expect "do" (skipSeparator ts)))
    return (.forEach name words body, ← expect "done" ts)

/-- The rest of a choice by patterns. -/
def readBranches : Nat → Word → List Token → Read
  | 0, _, _ => none
  | fuel + 1, subject, ts => do
    let ts := skipLines ts
    if keyword? ts = some "esac" then return (.nothing, ts.tail)
    let (patterns, ts) ← patternsAt ts
    let ts := skipLines ts
    let (body, ts) ← if closes ts then some (.nothing, ts) else readLines fuel ts
    match ts with
    | .operator ";;" :: ts => do
      let (otherwise, ts) ← readBranches fuel subject ts
      return (.branch subject patterns body otherwise, ts)
    | _ => return (.branch subject patterns body .nothing, ← expect "esac" ts)

/-- Commands with pipes between them. -/
def readPipeline : Nat → List Token → Read
  | 0, _ => none
  | fuel + 1, ts =>
    if keyword? ts = some "!" then (readPipeline fuel ts.tail).map fun r => (.negation r.1, r.2)
    else do
      let (first, ts) ← readCommand fuel ts
      match ts with
      | .operator "|" :: rest => do
        let (second, ts) ← readPipeline fuel (skipLines rest)
        return (.pipe first second, ts)
      | _ => return (first, ts)

/-- Pipelines of which each depends on the one before. The first of them has been read. -/
def readChain : Nat → Script → List Token → Read
  | 0, _, _ => none
  | fuel + 1, first, ts =>
    match ts with
    | .operator "&&" :: rest => do
      let (second, ts) ← readPipeline fuel (skipLines rest)
      readChain fuel (.both first second) ts
    | .operator "||" :: rest => do
      let (second, ts) ← readPipeline fuel (skipLines rest)
      readChain fuel (.either first second) ts
    | _ => some (first, ts)

/-- Commands on one line. -/
def readLine : Nat → List Token → Read
  | 0, _ => none
  | fuel + 1, ts => do
    let (first, ts) ← readPipeline fuel ts
    let (first, ts) ← readChain fuel first ts
    match ts with
    | .operator ";" :: rest => readMore fuel first rest
    | .operator "&" :: rest => readMore fuel first rest
    | _ => return (first, ts)

/-- Further commands on a line whose first one has been read, if there are any. -/
def readMore : Nat → Script → List Token → Read
  | 0, _, _ => none
  | fuel + 1, first, ts =>
    if closes ts || ts.head? == some .newline then some (first, ts)
    else do
      let (second, ts) ← readLine fuel ts
      return (.sequence first second, ts)

/-- Commands on several lines, up to what closes them. -/
def readLines : Nat → List Token → Read
  | 0, _ => none
  | fuel + 1, ts => do
    let (first, ts) ← readLine fuel ts
    match ts with
    | .newline :: rest =>
      let rest := skipLines rest
      if closes rest then return (first, rest)
      else do
        let (second, ts) ← readLines fuel rest
        return (.sequence first second, ts)
    | _ => return (first, ts)

end

/-- The next line of a script, and the tokens after it; a fault where the tokens make none. -/
def nextLine (ts : List Token) : Read :=
  match readLine (8 * ts.length + 8) ts with
  | some (line, []) => some (line, [])
  | some (line, .newline :: rest) => some (line, rest)
  | _ => none

end ClusterConfig.Shell

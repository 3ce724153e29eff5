/-!
# Scripts

The commands of a shell script: words with what is put in for them when they are used, redirections, and the ways to put commands
together.
-/

namespace ClusterConfig.Shell

/-- What becomes of the value of a variable. -/
inductive ValueRule where
  | asIs
  /-- Another text where it is empty. -/
  | orElse (text : String)
  /-- Another text where it is not empty. -/
  | insteadOf (text : String)
  /-- Its length. -/
  | length
  deriving DecidableEq, Repr

/-- A part of a word. Where it is not quoted, what is put in for it is split at blanks. -/
inductive Piece where
  | text (s : String)
  | quoted (s : String)
  /-- The value of a variable, changed as a rule says. -/
  | variable (name : String) (rule : ValueRule) (quoted : Bool)
  /-- The value of an expression. -/
  | arithmetic (expression : String) (quoted : Bool)
  /-- What a script prints. -/
  | printed (script : String) (quoted : Bool)
  deriving DecidableEq, Repr

/-- A word of a script. -/
abbrev Word := List Piece

/-- Where a stream of a command leads. -/
inductive Redirection where
  | read (file : Word)
  | write (stream : Nat) (append : Bool) (file : Word)
  | copy (stream source : Nat)
  deriving DecidableEq, Repr

/-- A script. -/
inductive Script where
  | nothing
  | simple (assignments : List (String × Word)) (words : List Word) (redirections : List Redirection)
  | redirected (body : Script) (redirections : List Redirection)
  | negation (body : Script)
  | pipe (first second : Script)
  | both (first second : Script)
  | either (first second : Script)
  | sequence (first second : Script)
  | subshell (body : Script)
  | choice (condition body otherwise : Script)
  | loop (condition body : Script) (stopAtSuccess : Bool)
  | forEach (name : String) (words : List Word) (body : Script)
  /-- One script where a word matches one of some patterns, and another where it does not. -/
  | branch (subject : Word) (patterns : List Word) (body otherwise : Script)
  deriving Repr

end ClusterConfig.Shell

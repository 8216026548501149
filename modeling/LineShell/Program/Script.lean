/-!
# Script — the script language of the system

A small part of the usual script language: simple commands with redirections, lists, conditions,
pipes, groups, and loops over words. This module holds what a script is made of.

- `Script.Piece`, `Script.Term` : words before expansion
- `Script.Redirect` : redirections
- `Script`          : a script

`LineShell.Program.Script.Scanner` and `LineShell.Program.Script.Parser` read scripts, and
`LineShell.Program.Interpreter` runs them.
-/

namespace LineShell
namespace Script

/-- A piece of a word. What stands between quotes is not split into several words. -/
inductive Piece where
  | text (s : String) (quoted : Bool)
  | param (name : String) (quoted : Bool)
  /-- What a script prints, given by its text. -/
  | output (script : String) (quoted : Bool)
  deriving DecidableEq, Repr

abbrev Term := List Piece

/-- Redirection signs. -/
inductive Sign where
  | input
  | output
  | append
  /-- To where another descriptor goes. -/
  | same
  deriving DecidableEq, Repr

/-- A redirection. -/
structure Redirect where
  descriptor : Nat
  sign : Sign
  target : Term
  deriving DecidableEq, Repr

end Script

/-- A script. -/
inductive Script where
  | skip
  /-- A simple command, with the line that it starts on. -/
  | command (line : Nat) (terms : List Script.Term) (redirects : List Script.Redirect)
  /-- The body once for each word. -/
  | forEach (name : String) (items : List Script.Term) (body : Script)
  /-- A script that can be left without ending the one around it. -/
  | subshell (body : Script)
  /-- A script whose status does not count. -/
  | background (body : Script)
  | redirected (body : Script) (line : Nat) (redirects : List Script.Redirect)
  | seq (first second : Script)
  | both (first second : Script)
  | either (first second : Script)
  | pipe (first second : Script)
  deriving DecidableEq, Repr

end LineShell

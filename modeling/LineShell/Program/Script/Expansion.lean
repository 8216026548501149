import LineShell.Program.Script.Pattern
import LineShell.Program.Script.State

/-!
# Expansion — from terms to words

Parameters, variables and the output of scripts take the place of what stands for them. What was not
quoted is then split into words, and words that are patterns become the names of files.

- `Script.expandTerms` : the words that terms stand for
- `Script.expandText`  : the one text that a term stands for
-/

namespace LineShell
namespace Script

def printedBy (text : String) : ScriptWork String := do
  let s ← get
  let c ← process
  let place := c.sinks.length
  let known := s.assigned.foldr (fun v env => env.set v.1 v.2) c.env
  match s.programs "sh" with
  | none => return ""
  | some sh =>
      modifyProcess fun c =>
        { c with
          env := known
          sinks := c.sinks ++ [Sink.memory]
          descriptors := { c.descriptors with out := place } }
      let status ← runApart c.name (sh ("-c" :: text :: s.name :: s.args))
      setStatus status
      let bytes := ((← process).sinks.getD place Sink.memory).held
      modifyProcess fun after => { after with env := c.env, descriptors := c.descriptors }
      return Utf8.decodeLossy (bytes.reverse.dropWhile (· == 10)).reverse

/-- The words that a term has become so far: those that are complete, and the one going on, with its
signs last first. -/
structure Fields where
  done : List (List Pattern.Sign) := []
  going : Option (List Pattern.Sign) := none

namespace Fields

def signsOf (plain : Bool) (text : String) : List Pattern.Sign :=
  (Utf8.encode text).map fun b => ⟨b, plain⟩

def add (f : Fields) (plain : Bool) (text : String) : Fields :=
  { f with going := some ((signsOf plain text).reverse ++ f.going.getD []) }

def cut (f : Fields) : Fields :=
  match f.going with
  | some word => ⟨f.done ++ [word.reverse], none⟩
  | none => f

def addSplit (f : Fields) (text : String) : Fields :=
  (signsOf false text).foldl
    (fun f s =>
      if s.byte = 32 ∨ s.byte = 9 ∨ s.byte = 10 then f.cut
      else { f with going := some (s :: f.going.getD []) }) f

def addAll (f : Fields) : List String → Fields
  | [] => f
  | [word] => f.add true word
  | word :: rest => addAll (f.add true word).cut rest

end Fields

def isAllArguments (t : Term) : Bool :=
  t.contains (.param "@" true) && t.all fun p => p == .param "@" true || p == .text "" true

def expandTerm (t : Term) : ScriptWork (List String) := do
  let s ← get
  if isAllArguments t && s.args.isEmpty then return []
  let mut f : Fields := {}
  for piece in t do
    match piece with
    | .text text quoted => f := f.add quoted text
    | .param "@" true => f := f.addAll s.args
    | .param name true => f := f.add true (← valueOf name)
    | .param name false => f := f.addSplit (← valueOf name)
    | .output script true => f := f.add true (← printedBy script)
    | .output script false => f := f.addSplit (← printedBy script)
  let c ← process
  return f.cut.done.flatMap (Pattern.expand c.host.disk c.cwd)

def expandTerms (ts : List Term) : ScriptWork (List String) := do
  return (← ts.mapM expandTerm).flatten

def expandText (t : Term) : ScriptWork String := do
  let texts ← t.mapM fun piece =>
    match piece with
    | .text text _ => pure text
    | .param name _ => valueOf name
    | .output script _ => printedBy script
  return String.join texts

end Script
end LineShell

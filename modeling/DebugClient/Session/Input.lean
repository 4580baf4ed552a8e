import DebugClient.Console.Command
import DebugClient.Text.Numeral
import DebugClient.Text.ShellWords

/-!
Lines typed at the interactive prompt. Those that begin with a colon are for the client, all others
for the debugger.
-/

namespace DebugClient

inductive Input where
  | debugger (command : Text)
  | state
  | undo (address : Nat)
  | catalogue
  | quit
  | invalid (reason : Text)
  deriving DecidableEq, Repr

namespace Input
open Text Numeral

/-- An address: hexadecimal behind `0x`, and decimal otherwise. -/
def address? (t : Text) : Option Nat :=
  match t with
  | '0' :: 'x' :: digits => hex? largest64 digits
  | digits => decimal? largest64 digits

/-- A command for the client, from the words of its line. -/
def ofWords (line : Text) (words : List Text) : Input :=
  let unknown := .invalid ("unknown command: ".toList ++ trim line)
  match words with
  | [word] =>
    if word = "state".toList then .state
    else if word = "catalogue".toList then .catalogue
    else if word = "q".toList ∨ word = "quit".toList then .quit
    else unknown
  | [word, argument] =>
    if word = "undo".toList then
      match address? argument with
      | some address => .undo address
      | none => .invalid ("not an address: ".toList ++ argument)
    else unknown
  | _ => unknown

def read (line : Text) : Input :=
  match trim line with
  | ':' :: line =>
    match ShellWords.split line with
    | some words => ofWords line words
    | none => .invalid "unbalanced quotes".toList
  | command => .debugger command

/-- Whether the target may have stopped somewhere else after a command. -/
def movesTarget : CommandKind → Bool
  | .step | .next | .finish | .run | .resume => true
  | _ => false

end Input
end DebugClient

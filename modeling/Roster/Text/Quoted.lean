import Roster.Text.Hidden

/-! Text in double quotes, with what does not show written as an escape. -/
namespace Roster.Text

def hexDigits (n : Nat) : List Char := Nat.toDigits 16 n

/-- The escape of a character in quoted text, if it needs one. -/
def escape? (c : Char) : Option (List Char) :=
  match c with
  | '\x00' => some ['\\', '0']
  | '\t' => some ['\\', 't']
  | '\r' => some ['\\', 'r']
  | '\n' => some ['\\', 'n']
  | '"' => some ['\\', '"']
  | '\\' => some ['\\', '\\']
  | c => if hidden.contains c then some ("\\u\x7b".toList ++ hexDigits c.toNat ++ ['\x7d']) else none

def quote (s : String) : String :=
  .ofList (['"'] ++ s.toList.flatMap (fun c => (escape? c).getD [c]) ++ ['"'])

end Roster.Text

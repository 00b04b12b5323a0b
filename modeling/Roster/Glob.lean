/-! Patterns in which a star stands for any run of tokens. `Generates` is the language; `accepts` decides it with one
remembered star. Strings are compared as UTF-8 bytes. -/
namespace Roster.Glob

variable {α : Type} [DecidableEq α]

/-- The texts a pattern stands for: every star is replaced, on its own, by some run of tokens. -/
inductive Generates (star : α) : List α → List α → Prop
  | nil : Generates star [] []
  | literal {a : α} {p l : List α} : a ≠ star → Generates star p l → Generates star (a :: p) (a :: l)
  | star {p l : List α} (run : List α) : Generates star p l → Generates star (star :: p) (run ++ l)

/-- Where the comparison stands, and the last star met with the place in the text it is taken to reach. -/
structure Cursor where
  pattern : Nat
  text : Nat
  star : Option (Nat × Nat)
  deriving DecidableEq, Repr

namespace Cursor

def start : Cursor := ⟨0, 0, none⟩

/-- One comparison while text is left: remember a star, take an equal token, or let the last star take
one token more. -/
def next? (star : α) (pattern text : Array α) (c : Cursor) (h : c.text < text.size) : Option Cursor :=
  if hp : c.pattern < pattern.size then
    if pattern[c.pattern] = star then some ⟨c.pattern + 1, c.text, some (c.pattern, c.text)⟩
    else if pattern[c.pattern] = text[c.text] then some ⟨c.pattern + 1, c.text + 1, c.star⟩
    else c.star.map fun s => ⟨s.1 + 1, s.2 + 1, some (s.1, s.2 + 1)⟩
  else c.star.map fun s => ⟨s.1 + 1, s.2 + 1, some (s.1, s.2 + 1)⟩

/-- Bounds the comparisons still to come: stars ahead first, then the reach of the last star, then plain tokens. -/
def rank (patternSize textSize : Nat) (c : Cursor) : Nat :=
  let ahead := match c.star with
    | none => patternSize + 1
    | some s => patternSize - s.1
  let reach := match c.star with
    | none => textSize + 1
    | some s => textSize - s.2
  let plain := (patternSize - c.pattern) + (textSize - c.text)
  (ahead * (textSize + 2) + reach) * (patternSize + textSize + 1) + plain

end Cursor

/-- A pattern whose text is used up accepts if only stars are left. -/
def starsFrom (star : α) (pattern : Array α) (p : Nat) : Bool :=
  (pattern.toList.drop p).all (· = star)

def run (star : α) (pattern text : Array α) : Nat → Cursor → Bool
  | 0, _ => false
  | fuel + 1, c =>
    if h : c.text < text.size then
      match c.next? star pattern text h with
      | some c => run star pattern text fuel c
      | none => false
    else starsFrom star pattern c.pattern

def accepts (star : α) (pattern text : Array α) : Bool :=
  run star pattern text (Cursor.start.rank pattern.size text.size + 1) .start

/-- Whether `text` is one of the texts of `pattern`, byte for byte. -/
def matchesText (pattern text : String) : Bool :=
  accepts 42 pattern.toUTF8.data text.toUTF8.data

end Roster.Glob

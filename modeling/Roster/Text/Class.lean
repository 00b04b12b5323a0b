/-! Classes of characters, as ranges of code points. -/
namespace Roster.Text

abbrev Class := List (Nat × Nat)

def Class.contains (k : Class) (c : Char) : Bool := k.any fun r => r.1 ≤ c.toNat && c.toNat ≤ r.2

end Roster.Text

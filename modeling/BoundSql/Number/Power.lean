/-!
# Powers of two and ten

The two bases in which numbers are written and stored.
-/

namespace BoundSql.Number

def pow2 (n : Nat) : Nat := Nat.pow 2 n

def pow10 (n : Nat) : Nat := Nat.pow 10 n

end BoundSql.Number

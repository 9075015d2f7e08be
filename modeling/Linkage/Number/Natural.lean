/-!
Powers, totals and widths: the arithmetic of whole numbers that the other modules share.
-/
namespace Linkage

def twoTo (n : Nat) : Nat := Nat.pow 2 n

def tenTo (n : Nat) : Nat := Nat.pow 10 n

def total (xs : List Nat) : Nat := xs.foldr (· + ·) 0

/-- Whether a number in two's complement of the given width holds an integer. -/
def fitsBits (bits : Nat) (n : Int) : Bool := -(twoTo (bits - 1) : Int) ≤ n && n < twoTo (bits - 1)

end Linkage

/-!
# Powers

Powers of the two bases in which numbers are kept and written.
-/
namespace TableLoader

def twoTo (n : Nat) : Nat := Nat.pow 2 n

def tenTo (n : Nat) : Nat := Nat.pow 10 n

end TableLoader

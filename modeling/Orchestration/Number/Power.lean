/-! Powers of two and ten, and the integers that fit into a number of bits. -/
namespace Orchestration

def twoTo (k : Nat) : Nat := Nat.pow 2 k

def tenTo (k : Nat) : Nat := Nat.pow 10 k

def fitsSigned (bits : Nat) (i : Int) : Bool :=
  decide (-(twoTo (bits - 1) : Int) ≤ i) && decide (i < twoTo (bits - 1))

def fitsUnsigned (bits : Nat) (i : Int) : Bool := decide (0 ≤ i) && decide (i < twoTo bits)

theorem twoTo_succ (k : Nat) : twoTo (k + 1) = 2 * twoTo k := Nat.mul_comm ..

theorem twoTo_pos (k : Nat) : 0 < twoTo k := Nat.pow_pos (by decide)

end Orchestration

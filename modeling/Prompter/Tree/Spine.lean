import Prompter.Tree.Basic
import Prompter.Tree.Error

namespace Prompter.Tree

/-- The left subtrees along the right spine, from the root. -/
def toList (t : Tree) : List Tree :=
  go [] t
where
  go (seen : List Tree) : Tree → List Tree
    | nil => seen.reverse
    | node l r => go (l :: seen) r

def toNat (t : Tree) : Nat :=
  go 0 t
where
  go (n : Nat) : Tree → Nat
    | nil => n
    | node _ r => go (n + 1) r

def toNatList (t : Tree) : List Nat :=
  go [] t
where
  go (seen : List Nat) : Tree → List Nat
    | nil => seen.reverse
    | node l r => go (l.toNat :: seen) r

def ofList (items : List Tree) : Tree := items.reverse.foldl (fun t head ↦ node head t) nil

def ofNat (n : Nat) : Tree :=
  go nil n
where
  go (t : Tree) : Nat → Tree
    | 0 => t
    | n + 1 => go (node nil t) n

def ofInt : Int → Except DomainError Tree
  | .ofNat n => .ok (ofNat n)
  | .negSucc n => .error (.negative (.negSucc n))

def ofIntList (ns : List Int) : Except DomainError Tree := do
  let items ← ns.mapM ofInt
  return ofList items

end Prompter.Tree

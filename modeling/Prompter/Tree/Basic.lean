import Prompter.Text.Basic

namespace Prompter

inductive Tree where
  | nil
  | node (left right : Tree)
  deriving DecidableEq, Inhabited, Repr

namespace Tree

def isNil : Tree → Bool
  | nil => true
  | node _ _ => false

def children : Tree → Option (Tree × Tree)
  | nil => none
  | node l r => some (l, r)

def size : Tree → Nat
  | nil => 0
  | node l r => size l + size r + 1

def encode : Tree → Text
  | nil => ['n', 'i', 'l']
  | node l r => '<' :: encode l ++ '.' :: encode r ++ ['>']

inductive Unwritten where
  | tree (t : Tree)
  | mark (c : Char)

namespace Unwritten

def weight : Unwritten → Nat
  | tree t => 4 * t.size + 1
  | mark _ => 1

def encode : Unwritten → Text
  | tree t => t.encode
  | mark c => [c]

end Unwritten

/-- Writes all of the stack in front of `written`, which holds the text in reverse. -/
def write (written : Text) : List Unwritten → Text
  | [] => written.reverse
  | .mark c :: rest => write (c :: written) rest
  | .tree nil :: rest => write ('l' :: 'i' :: 'n' :: written) rest
  | .tree (node l r) :: rest =>
    write ('<' :: written) (.tree l :: .mark '.' :: .tree r :: .mark '>' :: rest)
termination_by stack => stack.foldr (fun u n ↦ u.weight + n) 0
decreasing_by
  all_goals simp only [List.foldr_cons, Unwritten.weight, size]; omega

def render (t : Tree) : Text := write [] [.tree t]

def agree : List (Tree × Tree) → Bool
  | [] => true
  | (nil, nil) :: rest => agree rest
  | (node l r, node l' r') :: rest => agree ((l, l') :: (r, r') :: rest)
  | _ :: _ => false
termination_by pairs => pairs.foldr (fun p n ↦ 2 * p.1.size + 1 + n) 0
decreasing_by all_goals simp only [List.foldr_cons, size]; omega

/-- Equality, decided with an explicit stack. -/
def same (t u : Tree) : Bool := agree [(t, u)]

theorem write_eq (written : Text) (stack : List Unwritten) :
    write written stack = written.reverse ++ stack.flatMap Unwritten.encode := by
  fun_induction write written stack with
  | case1 => simp
  | case2 written c rest ih => simp [ih, Unwritten.encode]
  | case3 written rest ih => simp [ih, Unwritten.encode, encode]
  | case4 written l r rest ih => simp [ih, Unwritten.encode, encode]

/-- The loop writes the notation. -/
theorem render_eq_encode (t : Tree) : t.render = t.encode := by
  simp [render, write_eq, Unwritten.encode]

theorem agree_iff (pairs : List (Tree × Tree)) : agree pairs = true ↔ ∀ p ∈ pairs, p.1 = p.2 := by
  fun_induction agree pairs with
  | case1 => simp
  | case2 rest ih => simp [ih]
  | case3 l r l' r' rest ih => simp [ih, and_assoc]
  | case4 p rest h₁ h₂ =>
    obtain ⟨t, u⟩ := p
    cases t <;> cases u
    case nil.nil => exact (h₁ rfl).elim
    case node.node => exact (h₂ _ _ _ _ rfl).elim
    all_goals simp

end Tree

end Prompter

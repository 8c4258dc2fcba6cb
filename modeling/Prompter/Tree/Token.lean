import Prompter.Tree.Basic
import Prompter.Tree.Error

namespace Prompter

inductive TokenKind where
  | opening
  | closing
  | dot
  | nil
  deriving DecidableEq, Repr

def TokenKind.spelling : TokenKind → Text
  | opening => ['<']
  | closing => ['>']
  | dot => ['.']
  | nil => ['n', 'i', 'l']

/-- A token and the byte offset at which it starts. -/
structure Token where
  kind : TokenKind
  position : Nat
  deriving DecidableEq, Repr

namespace Token

def unexpected (t : Token) : SyntaxError := .unexpectedToken t.kind.spelling t.position

/-- Scans `rest`, which starts at byte offset `position` of `source`; `seen` holds the tokens
before it in reverse. A letter starts a word, which goes on to the last letter or digit. -/
def scanFrom (source : Text) (position : Nat) (seen : List Token) :
    Text → Except TreeError (List Token)
  | [] => .ok seen.reverse
  | c :: rest =>
    if c = '<' then scanFrom source (position + 1) (⟨.opening, position⟩ :: seen) rest
    else if c = '>' then scanFrom source (position + 1) (⟨.closing, position⟩ :: seen) rest
    else if c = '.' then scanFrom source (position + 1) (⟨.dot, position⟩ :: seen) rest
    else if c.isAlpha then
      let word := c :: rest.takeWhile Char.isAlphanum
      if word = TokenKind.nil.spelling then
        scanFrom source (position + word.length) (⟨.nil, position⟩ :: seen)
          (rest.dropWhile Char.isAlphanum)
      else .error (.lexical (TreeError.unrecognized source word position))
    else .error (.lexical (TreeError.unrecognized source [c] position))
termination_by rest => rest.length
decreasing_by
  all_goals
    have := (List.dropWhile_sublist Char.isAlphanum (l := rest)).length_le
    simp only [List.length_cons]; omega

def scan (source : Text) : Except TreeError (List Token) := scanFrom source 0 [] source

end Token

def Tree.tokens : Tree → List TokenKind
  | nil => [.nil]
  | node l r => .opening :: l.tokens ++ .dot :: r.tokens ++ [.closing]

end Prompter

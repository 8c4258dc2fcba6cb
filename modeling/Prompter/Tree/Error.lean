import Prompter.Diagnostic
import Prompter.Text.Quoted

namespace Prompter

inductive SyntaxError where
  | unexpectedEnd
  | unexpectedToken (spelling : Text) (position : Nat)
  deriving DecidableEq, Repr

namespace SyntaxError

def diagnostic : SyntaxError → Diagnostic
  | unexpectedEnd => ⟨"SYN001", "unexpected end of statement", none, none⟩
  | unexpectedToken spelling position =>
    ⟨"SYN002", "unexpected token '" ++ spelling ++ "'", some position, none⟩

end SyntaxError

inductive TreeError where
  | lexical (d : Diagnostic)
  | structural (e : SyntaxError)
  deriving DecidableEq, Repr

namespace TreeError

def unrecognized (source word : Text) (position : Nat) : Diagnostic :=
  ⟨"LEX001", "unrecognized token " ++ word.quoted, some position, some source⟩

def diagnostic : TreeError → Diagnostic
  | lexical d => d
  | structural e => e.diagnostic

def message : TreeError → Text
  | lexical d => "lex error: " ++ d.text
  | structural e => "syntax error: " ++ e.diagnostic.text

end TreeError

inductive DomainError where
  | negative (n : Int)
  deriving DecidableEq, Repr

def DomainError.diagnostic : DomainError → Diagnostic
  | negative n =>
    { code := "DOM001"
      message := "cannot encode negative integer " ++ Text.signedDecimal n ++ " as a tree" }

end Prompter

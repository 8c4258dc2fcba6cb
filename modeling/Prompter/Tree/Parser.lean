import Prompter.Tree.Token

namespace Prompter

namespace Tree

/-- A node of which `<` has been read: its left subtree is awaited, or its right one. -/
inductive Unfinished where
  | left
  | right (l : Tree)

abbrev Reading := Except SyntaxError Tree × List Token

/-- Goes on with `tokens`, given the unfinished nodes, innermost first, and the subtree that has
just been completed, if any. -/
def resume : List Unfinished → Option Tree → List Token → Reading
  | [], some t, tokens => (.ok t, tokens)
  | _, _, [] => (.error .unexpectedEnd, [])
  | stack, none, token :: rest =>
    match token.kind with
    | .nil => resume stack (some nil) rest
    | .opening => resume (.left :: stack) none rest
    | _ => (.error token.unexpected, rest)
  | .left :: stack, some t, token :: rest =>
    if token.kind = .dot then resume (.right t :: stack) none rest
    else (.error token.unexpected, rest)
  | .right l :: stack, some t, token :: rest =>
    if token.kind = .closing then resume stack (some (node l t)) rest
    else (.error token.unexpected, rest)

/-- Answers with the tokens that are left unread: an unexpected one is used up, and so is everything
at the end of the tokens. -/
def readTree (tokens : List Token) : Reading := resume [] none tokens

/-- Reads `n` trees one after another, each from where the one before it stopped. -/
def readTrees : Nat → List Token → List (Except SyntaxError Tree) × List Token
  | 0, tokens => ([], tokens)
  | n + 1, tokens =>
    let (result, rest) := readTree tokens
    let (results, rest) := readTrees n rest
    (result :: results, rest)

def readAll (tokens : List Token) : Except SyntaxError Tree :=
  match readTree tokens with
  | (.ok t, []) => .ok t
  | (.ok _, token :: _) => .error token.unexpected
  | (.error e, _) => .error e

def parse (source : Text) : Except TreeError Tree := do
  let tokens ← Token.scan source
  (readAll tokens).mapError .structural

def expect (kind : TokenKind) : List Token → Except SyntaxError Unit × List Token
  | [] => (.error .unexpectedEnd, [])
  | token :: rest =>
    if token.kind = kind then (.ok (), rest) else (.error token.unexpected, rest)

theorem length_le_of_expect {kind : TokenKind} {tokens rest : List Token}
    {r : Except SyntaxError Unit} (h : expect kind tokens = (r, rest)) :
    rest.length ≤ tokens.length := by
  cases tokens with
  | nil => exact (Prod.mk.inj h).2 ▸ Nat.le_refl 0
  | cons token tokens =>
    simp only [expect] at h
    split at h <;> exact (Prod.mk.inj h).2 ▸ Nat.le_succ _

/-- The grammar `tree := nil | < tree . tree >`, read by recursion on it. -/
def descend : (tokens : List Token) →
    { r : Reading // r.2.length ≤ tokens.length }
  | [] => ⟨(.error .unexpectedEnd, []), Nat.le_refl 0⟩
  | token :: rest =>
    match token.kind with
    | .nil => ⟨(.ok nil, rest), Nat.le_succ _⟩
    | .opening =>
      match descend rest with
      | ⟨(.error e, rest₁), h₁⟩ => ⟨(.error e, rest₁), Nat.le_succ_of_le h₁⟩
      | ⟨(.ok l, rest₁), h₁⟩ =>
        match h : expect .dot rest₁ with
        | (.error e, rest₂) =>
          ⟨(.error e, rest₂), Nat.le_succ_of_le (Nat.le_trans (length_le_of_expect h) h₁)⟩
        | (.ok _, rest₂) =>
          have h₂ : rest₂.length ≤ rest.length := Nat.le_trans (length_le_of_expect h) h₁
          match descend rest₂ with
          | ⟨(.error e, rest₃), h₃⟩ => ⟨(.error e, rest₃), Nat.le_succ_of_le (Nat.le_trans h₃ h₂)⟩
          | ⟨(.ok r, rest₃), h₃⟩ =>
            match h' : expect .closing rest₃ with
            | (.error e, rest₄) =>
              ⟨(.error e, rest₄),
                Nat.le_succ_of_le (Nat.le_trans (length_le_of_expect h') (Nat.le_trans h₃ h₂))⟩
            | (.ok _, rest₄) =>
              ⟨(.ok (node l r), rest₄),
                Nat.le_succ_of_le (Nat.le_trans (length_le_of_expect h') (Nat.le_trans h₃ h₂))⟩
    | _ => ⟨(.error token.unexpected, rest), Nat.le_succ _⟩
termination_by tokens => tokens.length
decreasing_by
  · exact Nat.lt_succ_self _
  · exact Nat.lt_succ_of_le h₂

end Tree

end Prompter

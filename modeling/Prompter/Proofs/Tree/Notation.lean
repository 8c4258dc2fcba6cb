import Mathlib.Logic.Function.Defs
import Prompter.Proofs.Tree.Spelling
import Prompter.Tree.Parser

namespace Prompter.Tree

open TokenKind

theorem render_eq (t : Tree) : t.render = spell t.tokens := by
  have hencode (t : Tree) : t.encode = spell t.tokens := by
    induction t with
    | nil => rfl
    | node l r hl hr => simp [encode, tokens, hl, hr, spell, spelling]
  rw [render_eq_encode, hencode]

theorem tokens_node (l r : Tree) :
    (node l r).tokens = .opening :: (l.tokens ++ .dot :: (r.tokens ++ [.closing])) := by
  simp [tokens]

/-- In a tree there is a mark between any two keywords. -/
theorem isChain_tokens (t : Tree) : t.tokens.IsChain Apart := by
  have hmark {a b : List TokenKind} {m : TokenKind} (hm : m ≠ .nil) (ha : a.IsChain Apart)
      (hb : b.IsChain Apart) : (a ++ m :: b).IsChain Apart := by
    refine ha.append (hb.cons fun _ _ h ↦ absurd h hm) fun k _ k' hk' _ ↦ ?_
    obtain rfl : m = k' := by simpa using hk'
    exact hm
  induction t with
  | nil => exact List.isChain_singleton _
  | node l r hl hr =>
    have hr' := hmark (m := .closing) (by decide) hr List.isChain_nil
    have hl' := hmark (m := .dot) (by decide) hl hr'
    rw [tokens_node]
    exact hmark (by decide) List.isChain_nil hl'

def Unfinished.tokens : Unfinished → List TokenKind
  | left => [.opening]
  | right l => .opening :: l.tokens ++ [.dot]

/-- All that has been read so far: the unfinished nodes from the outermost on, and the subtree that
has just been completed. -/
def consumed (stack : List Unfinished) (done : Option Tree) : List TokenKind :=
  stack.reverse.flatMap Unfinished.tokens ++ (done.map tokens).getD []

variable {stack : List Unfinished} {done : Option Tree} {input rest : List Token} {t : Tree}

theorem resume_tokens (h : input.map Token.kind = t.tokens) :
    resume stack none (input ++ rest) = resume stack (some t) rest := by
  induction t generalizing stack input rest with
  | nil =>
    obtain ⟨token, rfl, hk⟩ := List.map_eq_singleton_iff.1 h
    simp [resume, hk]
  | node l r hl hr =>
    rw [tokens_node, List.map_eq_cons_iff] at h
    obtain ⟨opening, input, rfl, ho, h⟩ := h
    obtain ⟨left, input, rfl, hleft, h⟩ := List.map_eq_append_iff.1 h
    obtain ⟨dot, input, rfl, hd, h⟩ := List.map_eq_cons_iff.1 h
    obtain ⟨right, input, rfl, hright, h⟩ := List.map_eq_append_iff.1 h
    obtain ⟨closing, rfl, hc⟩ := List.map_eq_singleton_iff.1 h
    simp only [List.cons_append, List.append_assoc, List.nil_append]
    rw [resume]
    simp only [ho]
    rw [hl hleft, resume, if_pos hd, hr hright, resume, if_pos hc]

theorem tokens_of_resume (h : resume stack done input = (.ok t, rest)) :
    ∃ used, input = used ++ rest ∧ consumed stack done ++ used.map Token.kind = t.tokens := by
  have hnext {stack stack' : List Unfinished} {done done' : Option Tree} {token : Token}
      {input : List Token}
      (hc : consumed stack done ++ [token.kind] = consumed stack' done')
      (h : ∃ used, input = used ++ rest ∧
        consumed stack' done' ++ used.map Token.kind = t.tokens) :
      ∃ used, token :: input = used ++ rest ∧
        consumed stack done ++ used.map Token.kind = t.tokens := by
    obtain ⟨used, rfl, ht⟩ := h
    refine ⟨token :: used, rfl, ?_⟩
    rw [← ht, ← hc, List.append_assoc]
    rfl
  fun_induction resume stack done input with
  | case1 t' input =>
    obtain ⟨ht, rfl⟩ := Prod.mk.inj h
    obtain rfl := Except.ok.inj ht
    exact ⟨[], rfl, by simp [consumed]⟩
  | case3 stack token input hk ih =>
    exact hnext (by simp [consumed, hk, tokens]) (ih h)
  | case4 stack token input hk ih =>
    exact hnext (by simp [consumed, hk, Unfinished.tokens]) (ih h)
  | case6 stack l token input hk ih =>
    exact hnext (by simp [consumed, hk, Unfinished.tokens]) (ih h)
  | case8 l stack r token input hk ih =>
    exact hnext (by simp [consumed, hk, Unfinished.tokens, tokens]) (ih h)
  | case2 => cases h
  | case5 => cases h
  | case7 => cases h
  | case9 => cases h

theorem readAll_eq_ok_iff : readAll input = .ok t ↔ input.map Token.kind = t.tokens := by
  constructor
  · intro h
    unfold readAll at h
    split at h
    next t' ht =>
      obtain rfl := Except.ok.inj h
      obtain ⟨used, rfl, hused⟩ := tokens_of_resume ht
      simpa [consumed] using hused
    next => cases h
    next => cases h
  · intro h
    have hread : readTree input = (.ok t, []) := by
      have hr : resume [] none (input ++ []) = resume [] (some t) [] := resume_tokens h
      rwa [List.append_nil, resume] at hr
    rw [readAll, hread]

theorem parse_eq_ok {source : Text} :
    parse source = .ok t ↔ ∃ tokens, Token.scan source = .ok tokens ∧ readAll tokens = .ok t := by
  unfold parse
  cases Token.scan source with
  | error e => simp [bind, Except.bind]
  | ok tokens =>
    simp only [bind, Except.bind, Except.ok.injEq, exists_eq_left']
    generalize readAll tokens = result
    cases result <;> simp [Except.mapError]

theorem scan_render (t : Tree) : Token.scan t.render = .ok (Token.place 0 t.tokens) :=
  Token.scan_eq_ok_iff.2 ⟨_, render_eq t, separated_of_isChain t.isChain_tokens, rfl⟩

theorem parse_render (t : Tree) : parse t.render = .ok t :=
  parse_eq_ok.2 ⟨_, scan_render t, readAll_eq_ok_iff.2 (Token.map_kind_place 0 t.tokens)⟩

theorem render_of_parse {source : Text} (h : parse source = .ok t) : source = t.render := by
  obtain ⟨tokens, hs, hr⟩ := parse_eq_ok.1 h
  obtain ⟨kinds, rfl, -, rfl⟩ := Token.scan_eq_ok_iff.1 hs
  rw [readAll_eq_ok_iff, Token.map_kind_place] at hr
  rw [render_eq, hr]

/-- A text is read as the tree for which it is written and as no other, and it is read only then;
different trees are written differently. -/
theorem parse_eq_ok_iff :
    (∀ source t, parse source = .ok t ↔ source = t.render) ∧ Function.Injective render := by
  refine ⟨fun source t ↦ ⟨render_of_parse, ?_⟩, fun t u h ↦ ?_⟩
  · rintro rfl
    exact parse_render t
  · have hu := parse_render u
    rw [← h, parse_render] at hu
    exact Except.ok.inj hu

end Prompter.Tree

import Prompter.Proofs.Tree.Viable

namespace Prompter.Tree

def goOn (stack : List Unfinished) : Reading → Reading
  | (.ok t, rest) => resume stack (some t) rest
  | (.error e, rest) => (.error e, rest)

theorem goOn_nil (r : Reading) : goOn [] r = r := by
  obtain ⟨result, rest⟩ := r
  cases result with
  | error e => rfl
  | ok t => rw [goOn, resume]

namespace Unfinished

/-- The mark that must follow the subtree that the node awaits. -/
def mark : Unfinished → TokenKind
  | left => .dot
  | right _ => .closing

def pass (stack : List Unfinished) (t : Tree) : Unfinished → List Unfinished × Option Tree
  | left => (right t :: stack, none)
  | right l => (stack, some (node l t))

end Unfinished

variable {stack : List Unfinished} {u : Unfinished} {t : Tree} {tokens rest : List Token}
  {e : SyntaxError}

theorem resume_of_expect_ok {ok : Unit} (h : expect u.mark tokens = (.ok ok, rest)) :
    resume (u :: stack) (some t) tokens = resume (u.pass stack t).1 (u.pass stack t).2 rest := by
  cases tokens with
  | nil => cases h
  | cons token tokens =>
    simp only [expect] at h
    split at h
    next hk =>
      cases h
      cases u with
      | left => exact if_pos hk
      | right l => exact if_pos hk
    next => cases h

theorem resume_of_expect_error (h : expect u.mark tokens = (.error e, rest)) :
    resume (u :: stack) (some t) tokens = (.error e, rest) := by
  cases tokens with
  | nil =>
    cases h
    cases u <;> simp [resume]
  | cons token tokens =>
    simp only [expect] at h
    split at h
    next => cases h
    next hk =>
      cases h
      cases u with
      | left => exact if_neg hk
      | right l => exact if_neg hk

theorem resume_opening {token : Token} (hk : token.kind = .opening) (tokens : List Token) :
    resume stack none (token :: tokens) = resume (.left :: stack) none tokens := by
  simp [resume, hk]

theorem resume_eq_goOn (stack : List Unfinished) (tokens : List Token) :
    resume stack none tokens = goOn stack (descend tokens).val := by
  fun_induction descend tokens generalizing stack with
  | case1 => simp [resume, goOn]
  | case2 token rest hk => simp [resume, goOn, hk]
  | case3 token rest hk e rest₁ _ hl ihl =>
    rw [resume_opening hk, ihl, hl]
    rfl
  | case4 token rest hk l rest₁ _ hl e rest₂ hdot ihl =>
    rw [resume_opening hk, ihl, hl]
    exact resume_of_expect_error (u := .left) hdot
  | case5 token rest hk l rest₁ _ hl _ rest₂ hdot _ e rest₃ _ hr ihl ihr =>
    rw [resume_opening hk, ihl, hl, goOn, resume_of_expect_ok (u := .left) hdot]
    rw [Unfinished.pass, ihr, hr]
    rfl
  | case6 token rest hk l rest₁ _ hl _ rest₂ hdot _ r rest₃ _ hr e rest₄ hclosing ihl ihr =>
    rw [resume_opening hk, ihl, hl, goOn, resume_of_expect_ok (u := .left) hdot]
    rw [Unfinished.pass, ihr, hr]
    exact resume_of_expect_error (u := .right l) hclosing
  | case7 token rest hk l rest₁ _ hl _ rest₂ hdot _ r rest₃ _ hr _ rest₄ hclosing ihl ihr =>
    rw [resume_opening hk, ihl, hl, goOn, resume_of_expect_ok (u := .left) hdot]
    rw [Unfinished.pass, ihr, hr]
    exact resume_of_expect_ok (u := .right l) hclosing
  | case8 token rest hn ho =>
    cases hk : token.kind with
    | nil => exact absurd hk hn
    | opening => exact absurd hk ho
    | _ => simp [resume, goOn, hk]

theorem readTree_eq_descend (tokens : List Token) : readTree tokens = (descend tokens).val := by
  rw [readTree, resume_eq_goOn, goOn_nil]

theorem readTree_eq_ok_iff :
    readTree tokens = (.ok t, rest) ↔
      ∃ used, tokens = used ++ rest ∧ used.map Token.kind = t.tokens := by
  constructor
  · intro h
    obtain ⟨used, he, hused⟩ := tokens_of_resume h
    exact ⟨used, he, by simpa [consumed] using hused⟩
  · rintro ⟨used, rfl, h⟩
    exact readTree_tokens h

theorem readTrees_tokens (ts : List Tree) (h : tokens.map Token.kind = ts.flatMap Tree.tokens) :
    readTrees ts.length (tokens ++ rest) = (ts.map .ok, rest) := by
  induction ts generalizing tokens with
  | nil =>
    obtain rfl := List.map_eq_nil_iff.1 h
    rfl
  | cons t ts ih =>
    obtain ⟨first, others, rfl, hfirst, hothers⟩ := List.map_eq_append_iff.1 h
    rw [List.length_cons, readTrees, List.append_assoc, readTree_tokens hfirst]
    simp only [ih hothers, List.map_cons]

/-- From wherever it starts, the reader answers as recursive descent does. A tree uses up the tokens
of what is written for it, an unexpected token is used up itself, and at the end nothing is left. So
trees that stand one after another are read one after another. -/
theorem readTree_descends (tokens : List Token) :
    readTree tokens = (descend tokens).val ∧
    (∀ t rest, readTree tokens = (.ok t, rest) ↔ ∃ used scanned, tokens = used ++ rest ∧
      Token.scan t.render = .ok scanned ∧ used.map Token.kind = scanned.map Token.kind) ∧
    (∀ e rest, readTree tokens = (.error e, rest) → e = .unexpectedEnd ∧ rest = [] ∨
      ∃ used token, tokens = used ++ token :: rest ∧ e = token.unexpected) ∧
    ∀ (ts : List Tree) rest, tokens.map Token.kind = ts.flatMap Tree.tokens →
      readTrees ts.length (tokens ++ rest) = (ts.map .ok, rest) := by
  refine ⟨readTree_eq_descend tokens, fun t rest ↦ ?_, fun e rest h ↦ ?_,
    fun ts rest ↦ readTrees_tokens ts⟩
  · simp only [readTree_eq_ok_iff, scan_render, Except.ok.injEq, exists_and_left, exists_eq_left',
      Token.map_kind_place]
  · cases failure_of_resume h with
    | ended => exact .inl ⟨rfl, rfl⟩
    | refused used token rest he => exact .inr ⟨used, token, he, rfl⟩

theorem readTree_descends_two :
    let tokens : List Token :=
      [⟨.nil, 0⟩, ⟨.opening, 3⟩, ⟨.nil, 4⟩, ⟨.dot, 7⟩, ⟨.nil, 8⟩, ⟨.closing, 11⟩]
    tokens.map Token.kind = [nil, node nil nil].flatMap Tree.tokens ∧
      readTrees 2 (tokens ++ [⟨.dot, 12⟩]) = ([.ok nil, .ok (node nil nil)], [⟨.dot, 12⟩]) := by
  intro tokens
  have ht : tokens.map Token.kind = [nil, node nil nil].flatMap Tree.tokens := rfl
  exact ⟨ht, (readTree_descends tokens).2.2.2 _ [⟨.dot, 12⟩] ht⟩

end Prompter.Tree

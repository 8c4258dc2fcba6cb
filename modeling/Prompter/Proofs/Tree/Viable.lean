import Prompter.Proofs.Tree.Notation

namespace Prompter.Tree

/-- The kinds of the tokens with which some tree begins. -/
def Viable (kinds : List TokenKind) : Prop := ∃ t : Tree, kinds <+: t.tokens

theorem Viable.mono {a b : List TokenKind} (hb : Viable b) (h : a <+: b) : Viable a := by
  obtain ⟨t, ht⟩ := hb
  exact ⟨t, h.trans ht⟩

theorem viable_take_iff {kinds : List TokenKind} {i : Nat} (hv : Viable (kinds.take i))
    (hn : ¬ Viable (kinds.take (i + 1))) (j : Nat) : Viable (kinds.take j) ↔ j ≤ i := by
  constructor
  · intro h
    by_contra hlt
    exact hn (h.mono (List.take_prefix_take_left (Nat.lt_of_not_le hlt)))
  · exact fun hle ↦ hv.mono (List.take_prefix_take_left hle)

/-- The node with `t` for the subtree that it awaits. A right subtree that comes after `t` is
`nil`. -/
def Unfinished.complete (t : Tree) : Unfinished → Tree
  | left => node t nil
  | right l => node l t

theorem Unfinished.prefix_tokens (u : Unfinished) (t : Tree) :
    u.tokens ++ t.tokens <+: (u.complete t).tokens := by
  cases u with
  | left => exact ⟨_, (tokens_node t nil).symm⟩
  | right l => exact ⟨[.closing], by simp [Unfinished.tokens, complete, Tree.tokens]⟩

theorem prefix_consumed_cons (u : Unfinished) (stack : List Unfinished) (t : Tree) :
    consumed (u :: stack) (some t) <+: consumed stack (some (u.complete t)) := by
  simpa [consumed] using u.prefix_tokens t

theorem viable_consumed (stack : List Unfinished) (done : Option Tree) :
    Viable (consumed stack done) := by
  have hsome (t : Tree) : Viable (consumed stack (some t)) := by
    induction stack generalizing t with
    | nil => exact ⟨t, List.prefix_rfl⟩
    | cons u stack ih => exact (ih _).mono (prefix_consumed_cons u stack t)
  cases done with
  | some t => exact hsome t
  | none => exact (hsome nil).mono (by simp [consumed])

variable {stack stack' : List Unfinished} {done done' : Option Tree} {input rest : List Token}
  {token : Token} {e : SyntaxError} {t t' : Tree}

/-- The loop fails at the end of what can become a tree, or at a token behind it. Then it has not
looked at the tokens that follow. -/
inductive Failure (stack : List Unfinished) (done : Option Tree) (input : List Token) :
    SyntaxError → List Token → Prop
  | ended (hv : Viable (consumed stack done ++ input.map Token.kind)) :
    Failure stack done input .unexpectedEnd []
  | refused (used : List Token) (token : Token) (rest : List Token)
      (he : input = used ++ token :: rest)
      (hv : Viable (consumed stack done ++ used.map Token.kind))
      (hr : ∀ more, resume stack done (used ++ token :: more) = (.error token.unexpected, more)) :
    Failure stack done input token.unexpected rest

theorem Failure.head
    (hr : ∀ more, resume stack done (token :: more) = (.error token.unexpected, more)) :
    Failure stack done (token :: rest) token.unexpected rest :=
  .refused [] token rest rfl (by simpa using viable_consumed stack done) hr

theorem Failure.cons (h : Failure stack' done' input e rest)
    (hc : consumed stack done ++ [token.kind] = consumed stack' done')
    (hr : ∀ more, resume stack done (token :: more) = resume stack' done' more) :
    Failure stack done (token :: input) e rest := by
  cases h with
  | ended hv => exact .ended (by simpa [← hc] using hv)
  | refused used token' rest he hv hr' =>
    refine .refused (token :: used) token' rest (he ▸ rfl) (by simpa [← hc] using hv) fun more ↦ ?_
    rw [List.cons_append, hr, hr']

theorem failure_of_resume (h : resume stack done input = (.error e, rest)) :
    Failure stack done input e rest := by
  fun_induction resume stack done input with
  | case1 t tokens => cases h
  | case2 stack done =>
    cases h
    exact .ended (by simpa using viable_consumed stack done)
  | case3 stack token input hk ih =>
    exact (ih h).cons (by simp [consumed, hk, tokens]) fun more ↦ by simp [resume, hk]
  | case4 stack token input hk ih =>
    exact (ih h).cons (by simp [consumed, hk, Unfinished.tokens]) fun more ↦ by simp [resume, hk]
  | case6 stack l token input hk ih =>
    exact (ih h).cons (by simp [consumed, hk, Unfinished.tokens]) fun more ↦ if_pos hk
  | case8 l stack r token input hk ih =>
    exact (ih h).cons (by simp [consumed, hk, Unfinished.tokens, tokens]) fun more ↦ if_pos hk
  | case5 stack token input hn ho =>
    cases h
    refine .head fun more ↦ ?_
    cases hk : token.kind with
    | nil => exact absurd hk hn
    | opening => exact absurd hk ho
    | _ => simp [resume, hk]
  | case7 stack l token input hk =>
    cases h
    exact .head fun more ↦ if_neg hk
  | case9 l stack r token input hk =>
    cases h
    exact .head fun more ↦ if_neg hk

theorem readTree_tokens (h : input.map Token.kind = t.tokens) :
    readTree (input ++ rest) = (.ok t, rest) := by
  rw [readTree, resume_tokens h, resume]

theorem exists_map_kind (kinds : List TokenKind) :
    ∃ tokens : List Token, tokens.map Token.kind = kinds :=
  ⟨kinds.map (⟨·, 0⟩), by simp [Function.comp_def]⟩

theorem eq_of_prefix_tokens (h : t.tokens <+: t'.tokens) : t = t' := by
  obtain ⟨more, hmore⟩ := h
  obtain ⟨input, hinput⟩ := exists_map_kind t.tokens
  obtain ⟨after, rfl⟩ := exists_map_kind more
  have hmap : (input ++ after).map Token.kind = t'.tokens := by rw [List.map_append, hinput, hmore]
  have hread' : readTree (input ++ after ++ []) = (.ok t', []) := readTree_tokens hmap
  rw [List.append_nil, readTree_tokens hinput] at hread'
  exact Except.ok.inj (Prod.mk.inj hread').1

inductive Verdict (input : List Token) : Except SyntaxError Tree → Prop
  | whole (t : Tree) (h : input.map Token.kind = t.tokens) : Verdict input (.ok t)
  | unfinished (hv : Viable (input.map Token.kind))
      (hn : ∀ t : Tree, input.map Token.kind ≠ t.tokens) : Verdict input (.error .unexpectedEnd)
  | refused (i : Nat) (token : Token) (ht : input[i]? = some token)
      (hv : Viable ((input.map Token.kind).take i))
      (hn : ¬ Viable ((input.map Token.kind).take (i + 1))) :
    Verdict input (.error token.unexpected)

/-- Where the reader stops at a token, whatever follows, it has seen the beginning of a tree up to
there, and no tree goes on with that token. -/
theorem Verdict.of_stop {used : List Token} {reading : List Token → Reading}
    (hv : Viable (used.map Token.kind))
    (hr : ∀ more, readTree (used ++ token :: more) = reading more)
    (hne : ∀ more t, reading more ≠ (.ok t, [])) :
    Verdict (used ++ token :: rest) (.error token.unexpected) := by
  have hsplit : (used ++ token :: rest).map Token.kind =
      (used.map Token.kind ++ [token.kind]) ++ rest.map Token.kind := by simp
  refine .refused used.length token (by simp) ?_ ?_
  · rwa [hsplit, List.append_assoc, List.take_left' (by simp)]
  · rw [hsplit, List.take_left' (by simp)]
    rintro ⟨t, more, ht⟩
    obtain ⟨after, rfl⟩ := exists_map_kind more
    have hmap : (used ++ token :: after).map Token.kind = t.tokens := by simp [← ht]
    have hread : readTree (used ++ token :: after ++ []) = (.ok t, []) := readTree_tokens hmap
    rw [List.append_nil, hr] at hread
    exact hne _ _ hread

theorem readAll_verdict (input : List Token) : Verdict input (readAll input) := by
  cases hr : readAll input with
  | ok t => exact .whole t (readAll_eq_ok_iff.1 hr)
  | error e =>
    have hn (t : Tree) : input.map Token.kind ≠ t.tokens := fun ht ↦ by
      rw [readAll_eq_ok_iff.2 ht] at hr
      cases hr
    unfold readAll at hr
    split at hr
    next => cases hr
    next t token rest ht =>
      -- what is left behind a whole tree
      cases hr
      obtain ⟨used, rfl, hused⟩ := tokens_of_resume ht
      have hmap : used.map Token.kind = t.tokens := by simpa [consumed] using hused
      refine .of_stop ⟨t, hmap ▸ List.prefix_rfl⟩ (fun more ↦ readTree_tokens hmap) ?_
      intro more t' h
      cases h
    next e rest he =>
      cases hr
      cases failure_of_resume he with
      | ended hv => exact .unfinished (by simpa [consumed] using hv) hn
      | refused used token rest he hv hr =>
        rw [he]
        refine .of_stop (by simpa [consumed] using hv) hr fun more t h ↦ ?_
        cases h

/-- The text is no tree, for the reason that the diagnostic gives. -/
def Rejected (source : Text) (d : Diagnostic) : Prop :=
  ∃ e, parse source = .error e ∧ e.diagnostic = d

variable {source : Text} {tokens : List Token}

theorem rejected_iff (hs : Token.scan source = .ok tokens) {d : Diagnostic} :
    Rejected source d ↔ ∃ e, readAll tokens = .error e ∧ e.diagnostic = d := by
  have hparse : parse source = (readAll tokens).mapError .structural := by
    rw [parse, hs]
    rfl
  rw [Rejected, hparse]
  cases readAll tokens with
  | ok t => simp [Except.mapError]
  | error e => simp [Except.mapError, TreeError.diagnostic]

theorem spelling_injective : Function.Injective TokenKind.spelling := by
  intro k k' h
  cases k <;> cases k' <;> first | rfl | exact absurd h (by decide)

theorem diagnostic_unexpected {token : Token} {k : TokenKind} {p : Nat} :
    token.unexpected.diagnostic =
        ⟨"SYN002", "unexpected token '" ++ k.spelling ++ "'", some p, none⟩ ↔ token = ⟨k, p⟩ := by
  constructor
  · obtain ⟨kind, position⟩ := token
    intro h
    simp only [Token.unexpected, SyntaxError.diagnostic, Diagnostic.mk.injEq, Option.some.injEq,
      List.append_cancel_left_eq, List.append_cancel_right_eq] at h
    rw [spelling_injective h.2.1, h.2.2.1]
  · rintro rfl
    rfl

theorem rejected_end_iff (hs : Token.scan source = .ok tokens) :
    Rejected source ⟨"SYN001", "unexpected end of statement", none, none⟩ ↔
      ∃ t : Tree, tokens.map Token.kind <+: t.tokens ∧ tokens.map Token.kind ≠ t.tokens := by
  rw [rejected_iff hs]
  have hv := readAll_verdict tokens
  constructor
  · rintro ⟨e, hread, hd⟩
    rw [hread] at hv
    cases hv with
    | unfinished hv hn =>
      obtain ⟨t, ht⟩ := hv
      exact ⟨t, ht, hn t⟩
    | refused => cases congrArg Diagnostic.position hd
  · rintro ⟨t, ht, hne⟩
    generalize readAll tokens = r at hv
    cases hv with
    | whole t' h =>
      rw [h] at ht hne
      exact absurd (congrArg Tree.tokens (eq_of_prefix_tokens ht)) hne
    | unfinished => exact ⟨_, rfl, rfl⟩
    | refused i token _ _ hn => exact absurd ⟨t, (List.take_prefix _ _).trans ht⟩ hn

theorem rejected_token_iff (hs : Token.scan source = .ok tokens) (k : TokenKind) (p : Nat) :
    Rejected source ⟨"SYN002", "unexpected token '" ++ k.spelling ++ "'", some p, none⟩ ↔
      ∃ i, tokens[i]? = some ⟨k, p⟩ ∧ Viable ((tokens.map Token.kind).take i) ∧
        ¬ Viable ((tokens.map Token.kind).take (i + 1)) := by
  rw [rejected_iff hs]
  have hv := readAll_verdict tokens
  constructor
  · rintro ⟨e, hread, hd⟩
    rw [hread] at hv
    cases hv with
    | unfinished => cases congrArg Diagnostic.position hd
    | refused i token ht hv hn =>
      obtain rfl := diagnostic_unexpected.1 hd
      exact ⟨i, ht, hv, hn⟩
  · rintro ⟨i, hi, hvi, hni⟩
    generalize readAll tokens = r at hv
    cases hv with
    | whole t h => exact absurd ⟨t, h ▸ List.take_prefix ..⟩ hni
    | unfinished hv => exact absurd (hv.mono (List.take_prefix ..)) hni
    | refused j token ht hv hn =>
      have hij : i = j := Nat.le_antisymm ((viable_take_iff hv hn i).1 hvi)
        ((viable_take_iff hvi hni j).1 hv)
      rw [hij, ht, Option.some.injEq] at hi
      exact ⟨_, rfl, diagnostic_unexpected.2 hi⟩

/-- The end of the tokens is what is wrong where they could go on to be a tree. Else the first token
is named with which they no longer can. -/
theorem rejected_at_earliest (hs : Token.scan source = .ok tokens) :
    (Rejected source ⟨"SYN001", "unexpected end of statement", none, none⟩ ↔
      ∃ t : Tree, tokens.map Token.kind <+: t.tokens ∧ tokens.map Token.kind ≠ t.tokens) ∧
    (∀ k p, Rejected source ⟨"SYN002", "unexpected token '" ++ k.spelling ++ "'", some p, none⟩ ↔
      ∃ i, tokens[i]? = some ⟨k, p⟩ ∧ Viable ((tokens.map Token.kind).take i) ∧
        ¬ Viable ((tokens.map Token.kind).take (i + 1))) ∧
    ∀ i, Viable ((tokens.map Token.kind).take i) →
      ¬ Viable ((tokens.map Token.kind).take (i + 1)) →
        ∀ j, Viable ((tokens.map Token.kind).take j) ↔ j ≤ i :=
  ⟨rejected_end_iff hs, rejected_token_iff hs, fun _ hv hn ↦ viable_take_iff hv hn⟩

theorem rejected_at_earliest_closing :
    let tokens : List Token := [⟨.opening, 0⟩, ⟨.nil, 1⟩, ⟨.dot, 4⟩, ⟨.closing, 5⟩]
    Token.scan "<nil.>" = .ok tokens ∧
      ∃ i, tokens[i]? = some ⟨.closing, 5⟩ ∧ Viable ((tokens.map Token.kind).take i) ∧
        ¬ Viable ((tokens.map Token.kind).take (i + 1)) := by
  intro tokens
  have hs : Token.scan "<nil.>" = .ok tokens := by
    refine Token.scan_eq_ok_iff.2 ⟨[.opening, .nil, .dot, .closing], rfl, ?_, rfl⟩
    exact TokenKind.separated_of_isChain (by simp [TokenKind.Apart])
  have hread : readAll tokens = .error (.unexpectedToken ['>'] 5) := by
    simp [tokens, readAll, readTree, resume, Token.unexpected, TokenKind.spelling]
  have hrejected := (rejected_iff hs).2 ⟨_, hread, rfl⟩
  exact ⟨hs, ((rejected_at_earliest hs).2.1 .closing 5).1 hrejected⟩

end Prompter.Tree

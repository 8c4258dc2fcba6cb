import Prompter.Proofs.Framer.Account

namespace Prompter

open Text

namespace Sign

variable {m t u : Text} {s x y z : List Sign}

/-- A text in a stream stands there as it is, or there is a turn within it. -/
theorem map_some_or_turn (h : text s = m ++ u) :
    (∃ y, s = m.map some ++ y ∧ text y = u) ∨
      ∃ p q y, m = p ++ q ∧ q ≠ [] ∧ s = p.map some ++ none :: y := by
  induction m generalizing s with
  | nil => exact .inl ⟨s, rfl, h⟩
  | cons c m ih =>
    cases s with
    | nil => cases h
    | cons d s =>
      cases d with
      | none => exact .inr ⟨[], c :: m, s, rfl, by simp, rfl⟩
      | some d =>
        have hs : d :: text s = c :: (m ++ u) := h
        rw [List.cons.injEq] at hs
        obtain ⟨rfl, hs⟩ := hs
        obtain ⟨y, rfl, hy⟩ | ⟨p, q, y, rfl, hq, rfl⟩ := ih hs
        · exact .inl ⟨y, rfl, hy⟩
        · exact .inr ⟨d :: p, q, y, rfl, hq, rfl⟩

theorem exists_of_text (hm : m ≠ []) (h : text s = t ++ (m ++ u)) :
    (∃ x y, s = x ++ (m.map some ++ y) ∧ text x = t ∧ text y = u) ∨
      ∃ x y p q, s = x ++ none :: y ∧ m = p ++ q ∧ p ≠ [] ∧ q ≠ [] ∧ text x = t ++ p := by
  obtain ⟨c, m, rfl⟩ := List.exists_cons_of_ne_nil hm
  obtain ⟨x, s', rfl, hx, hs⟩ := List.filterMap_eq_append_iff.1 h
  obtain ⟨n, d, r, rfl, hn, rfl, hr⟩ := List.filterMap_eq_cons_iff.1 hs
  have hxn : text (x ++ n) = t := by
    rw [text_append, text, text, hx, List.filterMap_eq_nil_iff.2 hn, List.append_nil]
  obtain ⟨y, rfl, hy⟩ | ⟨p, q, y, rfl, hq, rfl⟩ := map_some_or_turn hr
  · exact .inl ⟨x ++ n, y, by simp, hxn, hy⟩
  · refine .inr ⟨x ++ n ++ (c :: p).map some, y, c :: p, q, by simp, rfl, by simp, hq, ?_⟩
    rw [text_append, hxn, text_map_some]

theorem not_turn_within {a : List Sign} {p q : Text} (hp : p ≠ []) (hq : q ≠ [])
    (hx : text x = text a ++ p) : a ++ ((p ++ q).map some ++ z) ≠ x ++ none :: y := by
  intro h
  obtain ⟨r, rfl, hr⟩ | ⟨r, rfl, -⟩ := List.append_eq_append_iff.1 h
  · rw [text_append, List.append_cancel_left_eq] at hx
    obtain ⟨r', rfl, -⟩ | ⟨r', hm, hr'⟩ := List.append_eq_append_iff.1 hr
    · rw [text_append, text_map_some, List.append_assoc] at hx
      simp [hq] at hx
    · cases r' with
      | nil =>
        rw [List.append_nil] at hm
        rw [← hm, text_map_some] at hx
        simp [hq] at hx
      | cons n r' =>
        rw [List.cons_append, List.cons.injEq] at hr'
        have hmem : none ∈ (p ++ q).map some := by simp [hm, ← hr'.1]
        simp at hmem
  · rw [text_append, List.append_assoc] at hx
    simp [hp] at hx

theorem cut_of_break (h : text s = t ++ ['\n']) : (cut [] s).1 ≠ [] ∧ rest s = [] := by
  obtain rfl | ⟨s, n, rfl⟩ := List.eq_nil_or_concat s
  · simp [text] at h
  · rw [List.concat_eq_append] at h ⊢
    cases n with
    | none => simp [rest, cut_append, cut]
    | some c =>
      have hc : text s ++ [c] = t ++ ['\n'] := by simpa [text] using h
      obtain rfl := List.singleton_inj.1 (List.append_inj' hc rfl).2
      simp [rest, cut_append, cut]

theorem exists_break (s : List Sign) :
    (∃ u : Text, s = u.map some ∧ '\n' ∉ u) ∨
      ∃ (u : Text) (n : Sign) (r : List Sign), s = u.map some ++ n :: r ∧ '\n' ∉ u ∧
        (n = none ∨ n = some '\n') := by
  induction s with
  | nil => exact .inl ⟨[], rfl, by simp⟩
  | cons n s ih =>
    by_cases hn : n = none ∨ n = some '\n'
    · exact .inr ⟨[], n, s, rfl, by simp, hn⟩
    · rw [not_or] at hn
      obtain ⟨c, rfl⟩ := Option.ne_none_iff_exists'.1 hn.1
      have hc : '\n' ≠ c := fun he ↦ hn.2 (congrArg some he.symm)
      obtain ⟨u, rfl, hu⟩ | ⟨u, n, r, rfl, hu, hn⟩ := ih
      · exact .inl ⟨c :: u, rfl, by simp [hu, hc]⟩
      · exact .inr ⟨c :: u, n, r, rfl, by simp [hu, hc], hn⟩

theorem cut_solid (hm : Solid m) (ht : Blank t) (s : List Sign) :
    (∃ l ∈ (cut t (m.map some ++ s)).1, m <+: l ∧
        ((∀ c ∈ (text s).head?, isBlank c = true) → Opens m l)) ∨
      cut t (m.map some ++ s) = ([], t ++ (m ++ text s)) := by
  obtain ⟨u, rfl, hu⟩ | ⟨u, n, r, rfl, hu, hn⟩ := exists_break s
  · right
    rw [← List.map_append, cut_text (by simp [hm.noBreak, hu]), text_map_some]
  · left
    have hcut : cut t (m.map some ++ (u.map some ++ n :: r)) = cut (t ++ (m ++ u)) (n :: r) := by
      rw [← List.append_assoc, ← List.map_append, cut_append, cut_text (by simp [hm.noBreak, hu])]
      rfl
    have hhead (h : ∀ c ∈ (text (u.map some ++ n :: r)).head?, isBlank c = true) :
        ∀ c ∈ u.head?, isBlank c = true := by
      rw [text_append, text_map_some] at h
      exact fun c hc ↦ h c (List.mem_head?_append_of_mem_head? hc)
    rw [hcut]
    obtain rfl | rfl := hn
    · rw [cut, hm.trimStart_append ht]
      exact ⟨_, List.mem_cons_self, List.prefix_append m u, fun h ↦ ⟨u, rfl, hhead h⟩⟩
    · rw [cut_break, hm.trim_append ht]
      exact ⟨_, List.mem_cons_self, List.prefix_append m _, fun h ↦ opens_trimEnd (hhead h)⟩

end Sign

namespace Framer

open Sign

variable {f : Framer} {signs s : List Sign} {turns : List (List Sign)} {body : List Sign}
  {frames : List Frame}

theorem afterMarker?_ne_none {line : Text} (h : Opens f.marker line) :
    f.afterMarker? line ≠ none := by
  obtain ⟨z, rfl, hz⟩ := h
  rw [afterMarker?, after?_eq_some.2 rfl]
  cases z with
  | nil => simp
  | cons c z => simp [hz c rfl]

/-- No prompt begins a line of the stretch, or what is left after the lines, except the first. -/
structure Clean (f : Framer) (s : List Sign) : Prop where
  lines : ∀ l ∈ (cut [] s).1.tail, l ≠ [] → f.afterMarker? l = none
  rest : (cut [] s).1 ≠ [] → trimStart (rest s) ≠ [] →
    f.afterMarker? (trimStart (rest s)) = none

theorem Settled.clean (h : f.Settled s) : f.Clean s :=
  ⟨h.plain, fun _ hne ↦ absurd (trimStart_eq_nil h.rest) hne⟩

theorem Ledger.clean (h : Ledger f signs turns body frames) :
    f.Clean (body ++ (f.fragment.getD []).map some) := by
  have hcut : cut [] (body ++ (f.fragment.getD []).map some) =
      ((cut [] body).1, Sign.rest body ++ f.fragment.getD []) := cut_blanks h.fragment.1
  constructor
  · rw [hcut]
    exact h.present.plain
  · rw [Sign.rest, hcut, trimStart_blank_append h.present.rest, h.fragment.2]
    exact h.unseen

theorem ne_nil_of_opens {m l : Text} (hm : Solid m) (h : Opens m l) : l ≠ [] := by
  obtain ⟨z, rfl, -⟩ := h
  simp [hm.ne_nil]

theorem Clean.not_solid {x y : List Sign} (h : f.Clean (x ++ (f.marker.map some ++ y)))
    (hm : Solid f.marker) (hne : (cut [] x).1 ≠ []) (hx : Blank (Sign.rest x))
    (hy : ∀ c ∈ (text y).head?, isBlank c = true) : False := by
  obtain ⟨l₀, ls, hls⟩ := List.exists_cons_of_ne_nil hne
  have hcut : cut [] (x ++ (f.marker.map some ++ y)) =
      (l₀ :: (ls ++ (cut (Sign.rest x) (f.marker.map some ++ y)).1),
        (cut (Sign.rest x) (f.marker.map some ++ y)).2) := by
    rw [cut_append, hls]
    rfl
  obtain ⟨l, hl, -, ho⟩ | hrest := cut_solid hm hx y
  · refine afterMarker?_ne_none (ho hy) (h.lines l ?_ (ne_nil_of_opens hm (ho hy)))
    rw [hcut]
    exact List.mem_append_right ls hl
  · have ho : Opens f.marker (f.marker ++ text y) := ⟨_, rfl, hy⟩
    have hlast := h.rest (by rw [hcut]; exact List.cons_ne_nil _ _)
    rw [Sign.rest, hcut, hrest, hm.trimStart_append hx] at hlast
    exact afterMarker?_ne_none ho (hlast (ne_nil_of_opens hm ho))

/-- The prompt that a framer has missed has a turn in it. -/
theorem Clean.exists_turn (h : f.Clean s) (hm : Solid f.marker) {t u : Text}
    (hs : text s = (t ++ ['\n']) ++ (f.marker ++ u)) (hu : ∀ c ∈ u.head?, isBlank c = true) :
    ∃ x y p q, s = x ++ none :: y ∧ f.marker = p ++ q ∧ p ≠ [] ∧ q ≠ [] ∧
      text x = (t ++ ['\n']) ++ p := by
  obtain ⟨x, y, rfl, hx, rfl⟩ | hturn := exists_of_text hm.ne_nil hs
  · obtain ⟨hne, hrest⟩ := cut_of_break hx
    exact (h.not_solid hm hne (by simp [hrest, Blank]) hu).elim
  · exact hturn

end Framer

end Prompter

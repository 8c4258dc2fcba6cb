import Prompter.Framer
import Prompter.Proofs.Text.Trim

namespace Prompter

/-- A character of output, or a turn between two characters. -/
abbrev Sign := Option Char

def Framer.Input.signs : Framer.Input → List Sign
  | .chunk t => t.map some
  | .turn => [none]

namespace Sign

open Text

def text (s : List Sign) : Text := s.filterMap id

/-- The lines that end in a stream, and what follows the last of them, if `t` stands before the
stream on its first line. -/
def cut (t : Text) : List Sign → List Text × Text
  | [] => ([], t)
  | none :: r => (trimStart t :: (cut [] r).1, (cut [] r).2)
  | some c :: r => if c = '\n' then (trim t :: (cut [] r).1, (cut [] r).2) else cut (t ++ [c]) r

def lines (s : List Sign) : List Text := (cut [] s).1.filter (!·.isEmpty)

def rest (s : List Sign) : Text := (cut [] s).2

theorem filter_empty {ls : List Text} (h : ∀ l ∈ ls, l = []) : ls.filter (!·.isEmpty) = [] :=
  List.filter_eq_nil_iff.2 fun l hl ↦ by simp [h l hl]

variable {t u : Text} (a b : List Sign)

@[simp] theorem text_append : text (a ++ b) = text a ++ text b := List.filterMap_append

@[simp] theorem text_map_some (t : Text) : text (t.map some) = t := by
  simp [text, List.filterMap_map]

theorem cut_append (t : Text) :
    cut t (a ++ b) = ((cut t a).1 ++ (cut (cut t a).2 b).1, (cut (cut t a).2 b).2) := by
  induction a generalizing t with
  | nil => rfl
  | cons s a ih =>
    cases s with
    | none => simp [cut, ih]
    | some c =>
      by_cases hc : c = '\n'
      · simp [cut, hc, ih]
      · simp [cut, hc, ih]

theorem cut_text (h : '\n' ∉ u) (t : Text) : cut t (u.map some) = ([], t ++ u) := by
  induction u generalizing t with
  | nil => simp [cut]
  | cons c u ih =>
    rw [List.mem_cons, not_or] at h
    rw [List.map_cons, cut, if_neg (Ne.symm h.1), ih h.2]
    simp

theorem cut_break (t : Text) : cut t (some '\n' :: b) = (trim t :: (cut [] b).1, (cut [] b).2) := by
  rw [cut, if_pos rfl]

theorem cut_blank {s : List Sign} (ht : Blank t) (hs : Blank (text s)) :
    (∀ l ∈ (cut t s).1, l = []) ∧ Blank (cut t s).2 := by
  have hnil : Blank [] := by simp [Blank]
  induction s generalizing t with
  | nil => exact ⟨by simp [cut], ht⟩
  | cons x s ih =>
    cases x with
    | none =>
      obtain ⟨hl, hr⟩ := ih hnil hs
      exact ⟨List.forall_mem_cons.2 ⟨trimStart_eq_nil ht, hl⟩, hr⟩
    | some c =>
      have hc : isBlank c = true := hs c (by simp [text])
      have hs' : Blank (text s) := fun d hd ↦ hs d (by
        rw [text, List.filterMap_cons]
        exact List.mem_cons_of_mem _ hd)
      by_cases hn : c = '\n'
      · obtain ⟨hl, hr⟩ := ih hnil hs'
        rw [hn, cut_break]
        exact ⟨List.forall_mem_cons.2 ⟨trim_eq_nil ht, hl⟩, hr⟩
      · rw [cut, if_neg hn]
        exact ih (blank_append.2 ⟨ht, by simpa [Blank] using hc⟩) hs'

theorem cut_line {v w : Text} (ht : Blank t) (hu : '\n' ∉ u) (hv : Blank v) (hn : '\n' ∉ v)
    (hw : Blank w) :
    ∃ ls, (∀ l ∈ ls, l = []) ∧
      (cut t ((u ++ v ++ '\n' :: w).map some)).1 = trim u :: ls ∧
      Blank (cut t ((u ++ v ++ '\n' :: w).map some)).2 := by
  obtain ⟨hl, hr⟩ := cut_blank (t := []) (by simp [Blank]) ((text_map_some w).symm ▸ hw)
  have huv : '\n' ∉ u ++ v := by simp [hu, hn]
  have htrim : trim (t ++ (u ++ v)) = trim u := by
    rw [trim_blank_append ht, trim_append_blank hv]
  rw [List.map_append, cut_append, cut_text huv, List.map_cons, cut_break, htrim]
  exact ⟨_, hl, rfl, hr⟩

theorem cut_flatMap {ι : Type} {text ending : ι → Text} (htext : ∀ i, '\n' ∉ text i)
    (hending : ∀ i, Blank (ending i) ∧ '\n' ∉ ending i) (ht : Blank t) (ls : List ι) :
    (cut t ((ls.flatMap fun i ↦ text i ++ ending i ++ ['\n']).map some)).1.filter (!·.isEmpty) =
        (ls.map fun i ↦ (text i).trim).filter (!·.isEmpty) ∧
      Blank (cut t ((ls.flatMap fun i ↦ text i ++ ending i ++ ['\n']).map some)).2 := by
  have hnil : Blank [] := by simp [Blank]
  induction ls generalizing t with
  | nil => exact ⟨rfl, ht⟩
  | cons i ls ih =>
    obtain ⟨es, hes, hcut, hr⟩ :=
      cut_line (w := []) ht (htext i) (hending i).1 (hending i).2 hnil
    obtain ⟨hlines, hrest⟩ := ih hr
    have hempty := filter_empty hes
    rw [List.flatMap_cons, List.map_append, cut_append, hcut]
    refine ⟨?_, hrest⟩
    rw [List.filter_append, hlines, List.map_cons, List.filter_cons, List.filter_cons, hempty]
    split <;> rfl

/-- In a stretch of which at most one character had been said before the last turn, the turns come
before the second character. -/
theorem exists_of_turn {s x y : List Sign} (h : a ++ (s ++ y) = x ++ none :: u.map some)
    (hle : (text x).length ≤ (text a).length + 1) :
    ∃ (p : List Sign) (v : Text), s = p ++ v.map some ∧ (text p).length ≤ 1 := by
  have hshort {r : List Sign} (hx : text x = text a ++ text r) : (text r).length ≤ 1 := by
    rw [hx, List.length_append] at hle
    omega
  rw [← List.append_assoc, List.append_eq_append_iff] at h
  obtain ⟨r, rfl, -⟩ | ⟨r, hs, hr⟩ := h
  · refine ⟨s, [], by simp, ?_⟩
    simp only [text_append, List.length_append] at hle
    omega
  · cases r with
    | nil =>
      rw [List.append_nil] at hs
      exact ⟨s, [], by simp, hshort (hs ▸ text_append a s)⟩
    | cons n r =>
      rw [List.cons_append, List.cons.injEq] at hr
      obtain ⟨rfl, hr⟩ := hr
      obtain ⟨v, w, -, rfl, -⟩ := List.map_eq_append_iff.1 hr
      rw [List.append_cons, List.append_eq_append_iff] at hs
      obtain ⟨p, hp, hs⟩ | ⟨q, -, hv⟩ := hs
      · refine ⟨p, v, hs, hshort ?_⟩
        have ht := congrArg text hp
        rw [text_append, text_append] at ht
        exact (List.append_nil _).symm.trans ht
      · obtain ⟨v₁, v₂, -, -, rfl⟩ := List.map_eq_append_iff.1 hv
        exact ⟨[], v₂, rfl, by simp [text]⟩

end Sign

end Prompter

import Mathlib.Data.List.Induction
import Mathlib.Data.List.Sort
import Prompter.Table

namespace Prompter

namespace Table

variable {α β : Type}

def All (p : α → Prop) (t : Table α) : Prop := ∀ k v, t.get? k = some v → p v

theorem mem_entries {t : Table α} {k : Text} {v : α} : (k, v) ∈ t.entries ↔ t.get? k = some v := by
  obtain ⟨es, hs⟩ := t
  induction es with
  | nil => simp [get?]
  | cons e es ih =>
    obtain ⟨hlt, hes⟩ := List.pairwise_cons.1 hs
    have hrest := ih hes
    simp only [get?, List.find?_cons, List.mem_cons] at hrest ⊢
    by_cases he : e.1 = k
    · subst he
      have hnot : (e.1, v) ∉ es := fun h ↦ List.lt_irrefl e.1 (hlt (e.1, v) h)
      simp [hnot, Prod.ext_iff, eq_comm]
    · have hne : (k, v) ≠ e := fun h ↦ he (h ▸ rfl)
      simp [he, hne, hrest]

theorem ext_get? {t t' : Table α} (h : ∀ k, t.get? k = t'.get? k) : t = t' := by
  have : Std.Irrefl fun e e' : Text × α ↦ e.1 < e'.1 := ⟨fun e ↦ List.lt_irrefl e.1⟩
  have : Std.Antisymm fun e e' : Text × α ↦ e.1 < e'.1 :=
    ⟨fun _ _ h h' ↦ absurd (List.lt_trans h h') (List.lt_irrefl _)⟩
  have hsub {t t' : Table α} (h : ∀ k, t.get? k = t'.get? k) : t.entries ⊆ t'.entries :=
    fun e he ↦ mem_entries.2 (h e.1 ▸ mem_entries.1 he)
  obtain ⟨es, hs⟩ := t
  obtain ⟨es', hs'⟩ := t'
  simpa only [mk.injEq] using
    List.Subset.antisymm_of_pairwise hs hs' (hsub h) (hsub fun k ↦ (h k).symm)

theorem exists_of_ne_empty {t : Table α} (h : t ≠ ∅) : ∃ k v, t.get? k = some v := by
  by_contra hnone
  refine h (ext_get? fun k ↦ ?_)
  cases hv : t.get? k with
  | none => rfl
  | some v => exact absurd ⟨k, v, hv⟩ hnone

theorem get?_map (f : α → β) (t : Table α) (k : Text) : (t.map f).get? k = (t.get? k).map f := by
  simp only [get?, map, List.find?_map, Option.map_map]
  rfl

theorem map_insert (f : α → β) (t : Table α) (k : Text) (v : α) :
    (t.insert k v).map f = (t.map f).insert k (f v) := by
  refine ext_get? fun j ↦ ?_
  rw [get?_map, get?_insert, get?_insert, get?_map]
  split <;> rfl

theorem map_erase (f : α → β) (t : Table α) (k : Text) :
    (t.erase k).map f = (t.map f).erase k := by
  refine ext_get? fun j ↦ ?_
  rw [get?_map, get?_erase, get?_erase, get?_map]
  split <;> rfl

theorem insert_ne_empty (t : Table α) (k : Text) (v : α) : t.insert k v ≠ ∅ := by
  intro h
  have hget := t.get?_insert k k v
  rw [h, if_pos rfl] at hget
  cases hget

variable {p : α → Prop} {t : Table α}

theorem all_empty : All p (∅ : Table α) := fun _ _ h ↦ by cases h

theorem All.insert (h : t.All p) {v : α} (hv : p v) (k : Text) : (t.insert k v).All p := by
  intro j w hw
  rw [get?_insert] at hw
  split at hw
  · exact Option.some.inj hw ▸ hv
  · exact h j w hw

theorem All.erase (h : t.All p) (k : Text) : (t.erase k).All p := by
  intro j v hv
  rw [get?_erase] at hv
  split at hv
  · cases hv
  · exact h j v hv

theorem erase_of_get?_eq_none {k : Text} (h : t.get? k = none) : t.erase k = t := by
  obtain ⟨es, hes⟩ := t
  simp only [get?, Option.map_eq_none_iff, List.find?_eq_none, decide_eq_true_eq] at h
  simp only [erase, mk.injEq, List.filter_eq_self]
  exact fun e he ↦ decide_eq_true (h e he)

theorem All.map {f : β → α} {t : Table β} (h : t.All (p ∘ f)) : (t.map f).All p := by
  intro k v hv
  rw [get?_map] at hv
  obtain ⟨w, hw, rfl⟩ := Option.map_eq_some_iff.1 hv
  exact h k w hw

end Table

namespace LineSet

theorem ext_mem {s s' : LineSet} (h : ∀ n, n ∈ s ↔ n ∈ s') : s = s' := by
  obtain ⟨ns, hs⟩ := s
  obtain ⟨ns', hs'⟩ := s'
  simpa only [mk.injEq] using
    List.Subset.antisymm_of_pairwise hs hs' (fun n ↦ (h n).1) fun n ↦ (h n).2

theorem mem_insert {s : LineSet} {n m : Nat} : m ∈ s.insert n ↔ m = n ∨ m ∈ s := mem_insertLine

theorem mem_erase {s : LineSet} {n m : Nat} : m ∈ s.erase n ↔ m ∈ s ∧ m ≠ n := by
  refine List.mem_filter.trans (and_congr_right fun _ ↦ ?_)
  exact decide_eq_true_iff

theorem ofList_concat (ns : List Nat) (n : Nat) : ofList (ns ++ [n]) = (ofList ns).insert n :=
  List.foldl_append

theorem mem_ofList {ns : List Nat} {n : Nat} : n ∈ ofList ns ↔ n ∈ ns := by
  induction ns using List.reverseRecOn with
  | nil => exact Iff.rfl
  | append_singleton ns m ih =>
    rw [ofList_concat, mem_insert, ih, List.mem_append, List.mem_singleton, or_comm]

theorem insert_ne_empty (s : LineSet) (n : Nat) : s.insert n ≠ ∅ := by
  intro h
  have hmem : n ∈ (s.insert n).lines := mem_insertLine.2 (.inl rfl)
  rw [h] at hmem
  cases hmem

theorem ofList_ne_empty {ns : List Nat} (h : ns ≠ []) : ofList ns ≠ ∅ := by
  obtain rfl | ⟨ns, n, rfl⟩ := ns.eq_nil_or_concat
  · exact absurd rfl h
  · rw [List.concat_eq_append, ofList_concat]
    exact insert_ne_empty _ n

theorem isEmpty_iff {s : LineSet} : s.isEmpty ↔ s = ∅ := by
  obtain ⟨ns, h⟩ := s
  cases ns with
  | nil => exact iff_of_true rfl rfl
  | cons n ns => exact iff_of_false Bool.false_ne_true fun h ↦ by cases h

end LineSet

end Prompter

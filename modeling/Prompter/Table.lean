import Prompter.Text.Basic

namespace Prompter

/-- Entries are sorted by key, so that tables with the same content are equal. -/
structure Table (α : Type) where
  entries : List (Text × α)
  sorted : entries.Pairwise (·.1 < ·.1)
  deriving DecidableEq

namespace Table

variable {α β : Type}

def empty : Table α := ⟨[], .nil⟩

instance : EmptyCollection (Table α) := ⟨empty⟩
instance : Inhabited (Table α) := ⟨empty⟩

def get? (t : Table α) (k : Text) : Option α := (t.entries.find? (·.1 = k)).map (·.2)

def isEmpty (t : Table α) : Bool := t.entries.isEmpty

/-- Puts an entry before the first one with a greater key, in place of one with the same key. -/
def insertEntry (k : Text) (v : α) : List (Text × α) → List (Text × α)
  | [] => [(k, v)]
  | e :: rest =>
    if k < e.1 then (k, v) :: e :: rest
    else if k = e.1 then (k, v) :: rest
    else e :: insertEntry k v rest

theorem mem_insertEntry {k : Text} {v : α} {e : Text × α} {es : List (Text × α)}
    (h : e ∈ insertEntry k v es) : e = (k, v) ∨ e ∈ es := by
  induction es with
  | nil => simpa [insertEntry] using h
  | cons d rest ih =>
    simp only [insertEntry] at h
    split at h
    · simpa using h
    · split at h
      · simp only [List.mem_cons] at h ⊢
        exact h.imp_right .inr
      · simp only [List.mem_cons] at h ⊢
        exact h.elim (fun h ↦ .inr (.inl h)) fun h ↦ (ih h).imp_right .inr

theorem pairwise_insertEntry {k : Text} {v : α} {es : List (Text × α)}
    (h : es.Pairwise (·.1 < ·.1)) : (insertEntry k v es).Pairwise (·.1 < ·.1) := by
  induction es with
  | nil => simp [insertEntry]
  | cons d rest ih =>
    simp only [insertEntry]
    rw [List.pairwise_cons] at h
    split
    next hk =>
      refine .cons (fun e he ↦ ?_) (.cons h.1 h.2)
      rcases List.mem_cons.1 he with rfl | he
      · exact hk
      · exact List.lt_trans hk (h.1 e he)
    next hk =>
      split
      next he => exact .cons (fun e hm ↦ he ▸ h.1 e hm) h.2
      next hne =>
        refine .cons (fun e hm ↦ ?_) (ih h.2)
        rcases mem_insertEntry hm with rfl | hm
        · exact (Std.lt_trichotomy d.1 k).resolve_right (fun h ↦ h.elim (hne ·.symm) hk)
        · exact h.1 e hm

def insert (t : Table α) (k : Text) (v : α) : Table α :=
  ⟨insertEntry k v t.entries, pairwise_insertEntry t.sorted⟩

def erase (t : Table α) (k : Text) : Table α :=
  ⟨t.entries.filter (·.1 ≠ k), t.sorted.filter _⟩

def map (f : α → β) (t : Table α) : Table β :=
  ⟨t.entries.map fun e ↦ (e.1, f e.2), List.pairwise_map.2 t.sorted⟩

def ofList (es : List (Text × α)) : Table α := es.foldl (fun t e ↦ t.insert e.1 e.2) ∅

theorem find?_insertEntry (k j : Text) (v : α) (es : List (Text × α)) :
    (insertEntry k v es).find? (·.1 = j) =
      if j = k then some (k, v) else es.find? (·.1 = j) := by
  induction es with
  | nil => by_cases h : j = k <;> grind [insertEntry]
  | cons d rest ih => by_cases h : j = k <;> grind [insertEntry]

theorem get?_insert (t : Table α) (k j : Text) (v : α) :
    (t.insert k v).get? j = if j = k then some v else t.get? j := by
  simp only [get?, insert, find?_insertEntry]
  split <;> rfl

theorem get?_erase (t : Table α) (k j : Text) :
    (t.erase k).get? j = if j = k then none else t.get? j := by
  simp only [get?, erase, List.find?_filter]
  split
  next h => subst h; simp
  next h =>
    congr 2
    funext e
    by_cases he : e.1 = j <;> simp [he, h]

end Table

structure LineSet where
  lines : List Nat
  sorted : lines.Pairwise (· < ·)
  deriving DecidableEq

namespace LineSet

def empty : LineSet := ⟨[], .nil⟩

instance : EmptyCollection LineSet := ⟨empty⟩
instance : Membership Nat LineSet := ⟨fun s n ↦ n ∈ s.lines⟩

def isEmpty (s : LineSet) : Bool := s.lines.isEmpty

def insertLine (n : Nat) : List Nat → List Nat
  | [] => [n]
  | m :: rest =>
    if n < m then n :: m :: rest else if n = m then m :: rest else m :: insertLine n rest

theorem mem_insertLine {n m : Nat} {ns : List Nat} : m ∈ insertLine n ns ↔ m = n ∨ m ∈ ns := by
  induction ns with
  | nil => simp [insertLine]
  | cons d rest ih => simp only [insertLine]; grind

theorem pairwise_insertLine {n : Nat} {ns : List Nat} (h : ns.Pairwise (· < ·)) :
    (insertLine n ns).Pairwise (· < ·) := by
  induction ns with
  | nil => simp [insertLine]
  | cons d rest ih =>
    simp only [insertLine]
    rw [List.pairwise_cons] at h
    split
    next hn =>
      refine .cons (fun m hm ↦ ?_) (.cons h.1 h.2)
      rcases List.mem_cons.1 hm with rfl | hm
      · exact hn
      · exact Nat.lt_trans hn (h.1 m hm)
    next hn =>
      split
      · exact .cons h.1 h.2
      next hne =>
        refine .cons (fun m hm ↦ ?_) (ih h.2)
        rcases mem_insertLine.1 hm with rfl | hm
        · omega
        · exact h.1 m hm

def insert (s : LineSet) (n : Nat) : LineSet :=
  ⟨insertLine n s.lines, pairwise_insertLine s.sorted⟩

def erase (s : LineSet) (n : Nat) : LineSet := ⟨s.lines.filter (· ≠ n), s.sorted.filter _⟩

def ofList (ns : List Nat) : LineSet := ns.foldl insert ∅

end LineSet

end Prompter

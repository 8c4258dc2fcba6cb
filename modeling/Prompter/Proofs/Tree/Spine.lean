import Mathlib.Data.List.Basic
import Prompter.Tree.Spine

namespace Prompter.Tree

/-- All left subtrees along the right spine are `nil`. -/
def Unary : Tree → Prop
  | nil => True
  | node l r => l = nil ∧ Unary r

@[simp] theorem toList_node (l r : Tree) : (node l r).toList = l :: r.toList := by
  have hgo (seen : List Tree) (t : Tree) : toList.go seen t = seen.reverse ++ t.toList := by
    induction t generalizing seen with
    | nil => simp [toList, toList.go]
    | node l r _ ih => rw [toList, toList.go, toList.go, ih, ih [l]]; simp
  exact hgo [l] r

@[simp] theorem toNat_node (l r : Tree) : (node l r).toNat = r.toNat + 1 := by
  have hgo (n : Nat) (t : Tree) : toNat.go n t = t.toNat + n := by
    induction t generalizing n with
    | nil => simp [toNat, toNat.go]
    | node l r _ ih => rw [toNat, toNat.go, toNat.go, ih, ih (0 + 1)]; omega
  exact hgo 1 r

@[simp] theorem toNatList_node (l r : Tree) : (node l r).toNatList = l.toNat :: r.toNatList := by
  have hgo (seen : List Nat) (t : Tree) : toNatList.go seen t = seen.reverse ++ t.toNatList := by
    induction t generalizing seen with
    | nil => simp [toNatList, toNatList.go]
    | node l r _ ih => rw [toNatList, toNatList.go, toNatList.go, ih, ih [l.toNat]]; simp
  exact hgo [l.toNat] r

@[simp] theorem ofList_cons (head : Tree) (rest : List Tree) :
    ofList (head :: rest) = node head (ofList rest) := by
  simp [ofList, List.foldl_append]

@[simp] theorem ofNat_succ (n : Nat) : ofNat (n + 1) = node nil (ofNat n) := by
  have hgo (t : Tree) : ofNat.go (node nil t) n = node nil (ofNat.go t n) := by
    induction n generalizing t with
    | zero => rfl
    | succ n ih => exact ih (node nil t)
  exact hgo nil

theorem ofList_toList (t : Tree) : ofList t.toList = t := by
  induction t with
  | nil => rfl
  | node l r _ ih => rw [toList_node, ofList_cons, ih]

theorem toList_ofList (items : List Tree) : (ofList items).toList = items := by
  induction items with
  | nil => rfl
  | cons head rest ih => rw [ofList_cons, toList_node, ih]

theorem toNatList_eq (t : Tree) : t.toNatList = t.toList.map toNat := by
  induction t with
  | nil => rfl
  | node l r _ ih => rw [toNatList_node, toList_node, ih, List.map_cons]

theorem toNat_eq_length (t : Tree) : t.toNat = t.toList.length := by
  induction t with
  | nil => rfl
  | node l r _ ih => rw [toNat_node, toList_node, ih, List.length_cons]

theorem toNat_ofNat (n : Nat) : (ofNat n).toNat = n := by
  induction n with
  | zero => rfl
  | succ n ih => rw [ofNat_succ, toNat_node, ih]

theorem ofNat_toNat_iff (t : Tree) : ofNat t.toNat = t ↔ t.Unary := by
  induction t with
  | nil => exact iff_of_true rfl trivial
  | node l r _ ih =>
    rw [toNat_node, ofNat_succ, node.injEq, ih, Unary]
    exact and_congr_left' eq_comm

theorem unary_ofNat (n : Nat) : (ofNat n).Unary := by
  rw [← ofNat_toNat_iff, toNat_ofNat]

theorem ofIntList_cons_ofNat (n : Nat) (ns : List Int) :
    ofIntList (n :: ns) = (ofIntList ns).map (node (ofNat n)) := by
  simp only [ofIntList, List.mapM_cons]
  cases ns.mapM ofInt with
  | error e => rfl
  | ok items => exact congrArg Except.ok (ofList_cons _ _)

theorem ofIntList_cons_negSucc (n : Nat) (ns : List Int) :
    ofIntList (.negSucc n :: ns) = .error (.negative (.negSucc n)) := rfl

theorem ofIntList_eq (ns : List Int) :
    ofIntList ns = match ns.find? (· < 0) with
      | some n => .error (.negative n)
      | none => .ok (ofList (ns.map fun n ↦ ofNat n.toNat)) := by
  induction ns with
  | nil => rfl
  | cons n ns ih =>
    cases n with
    | ofNat n =>
      rw [Int.ofNat_eq_natCast, ofIntList_cons_ofNat, ih,
        List.find?_cons_of_neg (by simp)]
      cases ns.find? (· < 0) with
      | some m => rfl
      | none => simp [Except.map]
    | negSucc n =>
      rw [ofIntList_cons_negSucc, List.find?_cons_of_pos (by simp)]

theorem ofIntList_eq_error_iff {ns : List Int} {e : DomainError} :
    ofIntList ns = .error e ↔ ∃ before n after, ns = before ++ n :: after ∧
      (∀ m ∈ before, 0 ≤ m) ∧ n < 0 ∧ e = .negative n := by
  rw [ofIntList_eq]
  constructor
  · intro h
    split at h
    next n hn =>
      obtain ⟨hneg, before, after, rfl, hbefore⟩ := List.find?_eq_some_iff_append.1 hn
      refine ⟨before, n, after, rfl, fun m hm ↦ ?_, by simpa using hneg, (Except.error.inj h).symm⟩
      simpa using hbefore m hm
    next => cases h
  · intro ⟨before, n, after, hns, hbefore, hneg, he⟩
    have hn : ns.find? (· < 0) = some n := by
      refine List.find?_eq_some_iff_append.2 ⟨by simpa using hneg, before, after, hns, ?_⟩
      intro m hm
      simpa using hbefore m hm
    rw [hn, he]

/-- An integer list is that of exactly one tree, all of whose items are numbers and nothing else. -/
theorem ofIntList_eq_ok_iff {ns : List Int} {t : Tree} :
    ofIntList ns = .ok t ↔ t.toNatList.map Int.ofNat = ns ∧ ∀ item ∈ t.toList, item.Unary := by
  rw [ofIntList_eq]
  constructor
  · intro h
    split at h
    next => cases h
    next hnone =>
      obtain rfl := Except.ok.inj h
      rw [toNatList_eq, toList_ofList]
      constructor
      · have hself : ∀ n ∈ ns, (Int.ofNat ∘ toNat ∘ fun n : Int ↦ ofNat n.toNat) n = id n := by
          intro n hn
          have hpos : 0 ≤ n := by simpa using List.find?_eq_none.1 hnone n hn
          simp only [Function.comp_apply, toNat_ofNat]
          exact Int.toNat_of_nonneg hpos
        simp only [List.map_map]
        rw [List.map_congr_left hself, List.map_id]
      · intro item hitem
        obtain ⟨n, -, rfl⟩ := List.mem_map.1 hitem
        exact unary_ofNat _
  · intro ⟨hns, hunary⟩
    have hnone : ns.find? (· < 0) = none := by
      rw [List.find?_eq_none, ← hns]
      intro n hn
      obtain ⟨m, -, rfl⟩ := List.mem_map.1 hn
      simp
    have hself : ∀ item ∈ t.toList,
        ((fun n : Int ↦ ofNat n.toNat) ∘ Int.ofNat ∘ toNat) item = id item := by
      intro item hitem
      exact (ofNat_toNat_iff item).2 (hunary item hitem)
    rw [hnone, ← hns, toNatList_eq]
    simp only [List.map_map]
    rw [List.map_congr_left hself, List.map_id, ofList_toList]

/-- Trees and lists are read as each other without loss. Of numbers and lists of integers only the
way through the tree is the identity, and the way back is where the left subtrees, or those of the
items, are `nil`. -/
theorem conversions_inverse :
    (∀ t : Tree, ofList t.toList = t ∧ t.toNat = t.toList.length ∧
      t.toNatList = t.toList.map toNat) ∧
    (∀ items : List Tree, (ofList items).toList = items) ∧
    (∀ n : Nat, ∃ t, ofInt n = .ok t ∧ t.toNat = n) ∧
    (∀ t : Tree, ofInt t.toNat = .ok t ↔ t.Unary) ∧
    (∀ ns : List Int, (∃ e, ofIntList ns = .error e) ↔ ∃ n ∈ ns, n < 0) ∧
    (∀ ns e, ofIntList ns = .error e ↔ ∃ before n after, ns = before ++ n :: after ∧
      (∀ m ∈ before, 0 ≤ m) ∧ n < 0 ∧ e = .negative n) ∧
    ∀ ns t, ofIntList ns = .ok t ↔
      t.toNatList.map Int.ofNat = ns ∧ ∀ item ∈ t.toList, item.Unary := by
  refine ⟨fun t ↦ ⟨ofList_toList t, toNat_eq_length t, toNatList_eq t⟩, toList_ofList, ?_, ?_, ?_,
    fun _ _ ↦ ofIntList_eq_error_iff, fun _ _ ↦ ofIntList_eq_ok_iff⟩
  case refine_1 => exact fun n ↦ ⟨ofNat n, rfl, toNat_ofNat n⟩
  case refine_2 =>
    intro t
    rw [← ofNat_toNat_iff]
    exact ⟨Except.ok.inj, congrArg Except.ok⟩
  case refine_3 =>
    intro ns
    constructor
    · intro ⟨e, he⟩
      obtain ⟨before, n, after, rfl, -, hneg, -⟩ := ofIntList_eq_error_iff.1 he
      exact ⟨n, by simp, hneg⟩
    · intro ⟨n, hn, hneg⟩
      cases h : ofIntList ns with
      | error e => exact ⟨e, rfl⟩
      | ok t =>
        -- what a list of numbers gives back has no negative element
        obtain ⟨rfl, -⟩ := ofIntList_eq_ok_iff.1 h
        obtain ⟨m, -, rfl⟩ := List.mem_map.1 hn
        exact absurd hneg (by simp)

end Prompter.Tree

import Mathlib.Algebra.BigOperators.Group.List.Basic
import Mathlib.Algebra.Ring.Nat

namespace tun2proxy.split

variable {α : Type}

/-- `left` and `right` share out the members of `all`, and keep their order. -/
inductive Split : List α → List α → List α → Prop where
  | nil : Split [] [] []
  | left {x : α} {all left right : List α} (h : Split all left right) : Split (x :: all) (x :: left) right
  | right {x : α} {all left right : List α} (h : Split all left right) : Split (x :: all) left (x :: right)

/-- The walk along `l` up to the place of `x`. -/
def insertSorted (lt : α → α → Prop) [∀ x y, Decidable (lt x y)] (x : α) : List α → List α
  | [] => [x]
  | y :: rest => if lt y x then y :: insertSorted lt x rest else x :: y :: rest

namespace Split

variable {x : α} {all all' left left' right right' : List α}

/-- Every element is in one of the two parts. -/
theorem mem_iff (h : Split all left right) : x ∈ all ↔ x ∈ left ∨ x ∈ right := by
  induction h with
  | nil => simp
  | left _ ih => rw [List.mem_cons, List.mem_cons, ih, or_assoc]
  | right _ ih => rw [List.mem_cons, List.mem_cons, ih, or_left_comm]

theorem all_left : ∀ left : List α, Split left left []
  | [] => .nil
  | _ :: rest => .left (all_left rest)

theorem all_right : ∀ right : List α, Split right [] right
  | [] => .nil
  | _ :: rest => .right (all_right rest)

/-- Lists that were split may be appended piece by piece. -/
theorem append (h : Split all left right) (h' : Split all' left' right') :
    Split (all ++ all') (left ++ left') (right ++ right') := by
  induction h with
  | nil => exact h'
  | left _ ih => exact ih.left
  | right _ ih => exact ih.right

/-- If one part is empty, the other is the whole. -/
theorem eq_right (h : Split all [] right) : all = right := by
  generalize hleft : ([] : List α) = left at h
  induction h with
  | nil => rfl
  | left _ _ => cases hleft
  | right _ ih => rw [ih hleft]

/-- Sums over the whole are sums over the two parts. -/
theorem sum_map (f : α → Nat) (h : Split all left right) :
    (all.map f).sum = (left.map f).sum + (right.map f).sum := by
  induction h with
  | nil => rfl
  | left _ ih =>
    rw [List.map_cons, List.sum_cons, List.map_cons, List.sum_cons, ih]
    omega
  | right _ ih =>
    rw [List.map_cons, List.sum_cons, List.map_cons, List.sum_cons, ih]
    omega

/-- The members keep the order that they have in `all`. -/
theorem pairwise {lt : α → α → Prop} (h : Split all left right) (hall : all.Pairwise lt) :
    left.Pairwise lt ∧ right.Pairwise lt := by
  induction h with
  | nil => exact ⟨.nil, .nil⟩
  | left h ih =>
    obtain ⟨hx, hall⟩ := List.pairwise_cons.mp hall
    obtain ⟨hleft, hright⟩ := ih hall
    exact ⟨hleft.cons fun y hy => hx y (h.mem_iff.mpr (.inl hy)), hright⟩
  | right h ih =>
    obtain ⟨hx, hall⟩ := List.pairwise_cons.mp hall
    obtain ⟨hleft, hright⟩ := ih hall
    exact ⟨hleft, hright.cons fun y hy => hx y (h.mem_iff.mpr (.inr hy))⟩

/-- The first member of `right` goes to its place in `left`. -/
theorem insert {lt : α → α → Prop} [∀ x y, Decidable (lt x y)] (h : Split all left (x :: right))
    (hall : all.Pairwise fun x y => lt x y ∧ ¬ lt y x) :
    Split all (insertSorted lt x left) right := by
  generalize hright : x :: right = right' at h
  induction h with
  | nil => cases hright
  | left h ih =>
    obtain ⟨hfirst, hall⟩ := List.pairwise_cons.mp hall
    subst hright
    rw [insertSorted, if_pos (hfirst x (h.mem_iff.mpr (.inr List.mem_cons_self))).1]
    exact (ih hall rfl).left
  | right h _ih =>
    rename_i y all left right'
    obtain ⟨hfirst, -⟩ := List.pairwise_cons.mp hall
    cases hright
    obtain _ | ⟨y, rest⟩ := left
    · exact h.left
    · rw [insertSorted, if_neg (hfirst y (h.mem_iff.mpr (.inl List.mem_cons_self))).2]
      exact h.left

/-- Another member in the place of the first one of `right`. -/
theorem replace (h : Split all left (x :: right)) (x' : α) :
    ∃ front back, all = front ++ x :: back ∧ Split (front ++ x' :: back) left (x' :: right) := by
  generalize hright : x :: right = right' at h
  induction h with
  | nil => cases hright
  | left h ih =>
    rename_i y all left right'
    obtain ⟨front, back, rfl, hsplit⟩ := ih hright
    exact ⟨y :: front, back, rfl, hsplit.left⟩
  | right h _ih =>
    rename_i y all left right'
    cases hright
    exact ⟨[], all, rfl, h.right⟩

theorem mem_insertSorted {lt : α → α → Prop} [∀ x y, Decidable (lt x y)] (x : α) (l : List α) :
    x ∈ insertSorted lt x l := by
  induction l with
  | nil => exact List.mem_cons_self
  | cons y rest ih =>
    rw [insertSorted]
    split
    · exact List.mem_cons_of_mem _ ih
    · exact List.mem_cons_self

/-- Inserting adds only the new element. -/
theorem mem_of_insertSorted {lt : α → α → Prop} [∀ x y, Decidable (lt x y)] {x y : α} {l : List α}
    (h : y ∈ insertSorted lt x l) : y = x ∨ y ∈ l := by
  induction l with
  | nil => exact .inl (List.mem_singleton.mp h)
  | cons z rest ih =>
    rw [insertSorted] at h
    split at h
    · rcases List.mem_cons.mp h with rfl | h
      · exact .inr List.mem_cons_self
      · exact (ih h).imp_right (List.mem_cons_of_mem _)
    · exact List.mem_cons.mp h

/-- Its place is behind all of `left`, if it does not stand before the last one. -/
theorem insertSorted_last {lt : α → α → Prop} [∀ x y, Decidable (lt x y)] {y : α} {init : List α}
    (h : Split all (init ++ [y]) (x :: right)) (hall : all.Pairwise fun x y => lt x y ∧ ¬ lt y x)
    (hlast : ¬ lt x y) : insertSorted lt x (init ++ [y]) = init ++ [y] ++ [x] := by
  generalize hright : x :: right = right' at h
  generalize hleft : init ++ [y] = left at h
  induction h generalizing init with
  | nil => cases hright
  | left h ih =>
    rename_i z all left right'
    obtain ⟨hfirst, hrest⟩ := List.pairwise_cons.mp hall
    have hx := (hfirst x (h.mem_iff.mpr (.inr (hright ▸ List.mem_cons_self)))).1
    obtain _ | ⟨z', init⟩ := init
    · cases hleft
      rw [insertSorted, if_pos hx]
      rfl
    · rw [List.cons_append, List.cons_eq_cons] at hleft
      obtain ⟨rfl, hleft⟩ := hleft
      rw [insertSorted, if_pos hx, ih hrest hright hleft]
      rfl
  | right h _ih =>
    obtain ⟨hfirst, -⟩ := List.pairwise_cons.mp hall
    cases hright
    exact absurd (hfirst y (h.mem_iff.mpr (.inl (hleft ▸ by simp)))).1 hlast

/-- The parts may change places. -/
theorem symm (h : Split all left right) : Split all right left := by
  induction h with
  | nil => exact .nil
  | left _ ih => exact ih.right
  | right _ ih => exact ih.left

/-- If `left` stands before `right`, it comes first. -/
theorem eq_append {lt : α → α → Prop} (h : Split all left right)
    (hall : all.Pairwise fun x y => lt x y ∧ ¬ lt y x) (hlt : ∀ x ∈ left, ∀ y ∈ right, lt x y) :
    all = left ++ right := by
  induction h with
  | nil => rfl
  | left h ih =>
    obtain ⟨-, hall⟩ := List.pairwise_cons.mp hall
    rw [List.cons_append, ih hall fun x hx => hlt x (List.mem_cons_of_mem _ hx)]
  | right h _ih =>
    rename_i y all left right
    obtain ⟨hfirst, -⟩ := List.pairwise_cons.mp hall
    have hnil : left = [] := by
      apply List.eq_nil_iff_forall_not_mem.mpr
      intro z hz
      exact (hfirst z (h.mem_iff.mpr (.inl hz))).2 (hlt z hz y List.mem_cons_self)
    rw [hnil] at h ⊢
    rw [h.eq_right, List.nil_append]

/-- The last member stays the last, unless the new one goes behind all. -/
theorem getLast_insertSorted {lt : α → α → Prop} [∀ x y, Decidable (lt x y)] {l : List α}
    (h : ¬ ∀ y ∈ l, lt y x) : (insertSorted lt x l).getLast? = l.getLast? := by
  induction l with
  | nil => exact absurd (by simp) h
  | cons y rest ih =>
    by_cases hy : lt y x
    · have hrest : ¬ ∀ z ∈ rest, lt z x := fun hrest => h (List.forall_mem_cons.mpr ⟨hy, hrest⟩)
      rw [insertSorted, if_pos hy, List.getLast?_cons, List.getLast?_cons, ih hrest]
    · rw [insertSorted, if_neg hy, List.getLast?_cons_cons]

/-- What is not before anything in the list comes to its end. -/
theorem insertSorted_behind {lt : α → α → Prop} [∀ x y, Decidable (lt x y)] {l : List α}
    (h : ∀ y ∈ l, lt y x) : insertSorted lt x l = l ++ [x] := by
  induction l with
  | nil => rfl
  | cons y rest ih =>
    obtain ⟨hy, hrest⟩ := List.forall_mem_cons.mp h
    rw [insertSorted, if_pos hy, ih hrest]
    rfl

/-- What stands first in `all` and has `p` goes from both parts, if nothing has `p` behind a
    member that has not. -/
theorem dropWhile {p : α → Bool} (h : Split all left right)
    (hall : all.Pairwise fun x y => p y = true → p x = true) :
    Split (all.dropWhile p) (left.dropWhile p) (right.dropWhile p) := by
  have hkeep {l : List α} (hl : ∀ y ∈ l, p y = false) : l.dropWhile p = l := by
    obtain _ | ⟨y, rest⟩ := l
    · rfl
    · exact List.dropWhile_cons_of_neg (by simp [hl y List.mem_cons_self])
  have hrest {y : α} {l : List α} (hy : p y = false) (hl : ∀ z ∈ l, p z = true → p y = true) :
      ∀ z ∈ l, p z = false := fun z hz => Bool.eq_false_iff.mpr fun hpz => by simp [hl z hz hpz] at hy
  induction h with
  | nil => exact .nil
  | left h ih =>
    rename_i y all left right
    obtain ⟨hfirst, hall⟩ := List.pairwise_cons.mp hall
    by_cases hy : p y = true
    · rw [List.dropWhile_cons_of_pos hy, List.dropWhile_cons_of_pos hy]
      exact ih hall
    · have hnone := hrest (Bool.eq_false_iff.mpr hy) hfirst
      rw [List.dropWhile_cons_of_neg hy, List.dropWhile_cons_of_neg hy,
        hkeep fun z hz => hnone z (h.mem_iff.mpr (.inr hz))]
      exact h.left
  | right h ih =>
    rename_i y all left right
    obtain ⟨hfirst, hall⟩ := List.pairwise_cons.mp hall
    by_cases hy : p y = true
    · rw [List.dropWhile_cons_of_pos hy, List.dropWhile_cons_of_pos hy]
      exact ih hall
    · have hnone := hrest (Bool.eq_false_iff.mpr hy) hfirst
      rw [List.dropWhile_cons_of_neg hy, List.dropWhile_cons_of_neg hy,
        hkeep fun z hz => hnone z (h.mem_iff.mpr (.inl hz))]
      exact h.right

/-- The last member of `right` is the last of `all`, if nothing in `left` stands behind it. -/
theorem last {lt : α → α → Prop} (h : Split all left (right ++ [x]))
    (hall : all.Pairwise fun x y => lt x y ∧ ¬ lt y x) (hleft : ∀ y ∈ left, lt y x) :
    ∃ rest, all = rest ++ [x] ∧ Split rest left right := by
  generalize hright : right ++ [x] = right' at h
  induction h generalizing right with
  | nil => simp at hright
  | left h ih =>
    rename_i y all left right'
    obtain ⟨-, hall⟩ := List.pairwise_cons.mp hall
    obtain ⟨rest, rfl, hrest⟩ := ih hall (fun z hz => hleft z (List.mem_cons_of_mem y hz)) hright
    exact ⟨y :: rest, rfl, hrest.left⟩
  | right h ih =>
    rename_i y all left right'
    obtain ⟨hfirst, -⟩ := List.pairwise_cons.mp hall
    obtain _ | ⟨z, right⟩ := right
    · cases hright
      have hnil : left = [] := by
        apply List.eq_nil_iff_forall_not_mem.mpr
        intro z hz
        exact (hfirst z (h.mem_iff.mpr (.inl hz))).2 (hleft z hz)
      rw [hnil] at h ⊢
      rw [h.eq_right]
      exact ⟨[], rfl, .nil⟩
    · rw [List.cons_append, List.cons_eq_cons] at hright
      obtain ⟨rfl, hright⟩ := hright
      obtain ⟨rest, rfl, hrest⟩ := ih (List.pairwise_cons.mp hall).2 hleft hright
      exact ⟨z :: rest, rfl, hrest.right⟩

end Split

end tun2proxy.split

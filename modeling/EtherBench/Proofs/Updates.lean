/-!
# Lists with one element changed

What is looked at of the elements is all the same when the change cannot be seen.
-/

namespace EtherBench

section
variable {α β : Type} {f : α → β} {xs ys : List α} {i : Nat} {x y : α}

theorem map_set_of_eq (hx : xs[i]? = some x) (hf : f y = f x) : (xs.set i y).map f = xs.map f := by
  apply List.ext_getElem?
  intro j
  rw [List.map_set, List.getElem?_set]
  split
  · rename_i hij
    subst hij
    split
    · rw [List.getElem?_map, hx, hf]
      rfl
    · rename_i hlt
      rw [List.getElem?_eq_none (Nat.not_lt.mp hlt)]
  · rfl

theorem map_modify {g : α → α} {k : β → β} (hf : ∀ x, f (g x) = k (f x)) (xs : List α) (i : Nat) :
    (xs.modify i g).map f = (xs.map f).modify i k := by
  apply List.ext_getElem?
  intro j
  rw [List.getElem?_map, List.getElem?_modify, List.getElem?_modify, List.getElem?_map]
  cases xs[j]? with
  | none => rfl
  | some x =>
    by_cases hij : i = j
    · simp [hij, hf]
    · simp [hij]

theorem map_modify_of_eq {g : α → α} (hf : ∀ x, f (g x) = f x) (xs : List α) (i : Nat) :
    (xs.modify i g).map f = xs.map f := by
  apply List.ext_getElem?
  intro j
  rw [List.getElem?_map, List.getElem?_modify, List.getElem?_map]
  cases xs[j]? with
  | none => rfl
  | some x =>
    by_cases hij : i = j
    · simp [hij, hf]
    · simp [hij]

theorem exists_of_map_eq (h : ys.map f = xs.map f) (hy : ys[i]? = some y) :
    ∃ x, xs[i]? = some x ∧ f y = f x := by
  have := congrArg (fun zs => zs[i]?) h
  simp only [List.getElem?_map, hy, Option.map_some] at this
  obtain ⟨x, hx, he⟩ := Option.map_eq_some_iff.mp this.symm
  exact ⟨x, hx, he.symm⟩

theorem length_eq_of_map_eq (h : ys.map f = xs.map f) : ys.length = xs.length := by
  simpa using congrArg List.length h

end

end EtherBench

import Mathlib.Data.List.Basic

/-!
# Parentheses in a text

Where parentheses are balanced, a separator outside of all of them splits the text in
one way only.  Whether a character stands inside is decided by counting the parentheses
in front of it.
-/

namespace Stereograph.Shader

/-- How many more parentheses a text opens than it closes. -/
def excess (text : List Char) : Int :=
  text.count '(' - text.count ')'

theorem excess_nil : excess [] = 0 :=
  rfl

theorem excess_append (left right : List Char) :
    excess (left ++ right) = excess left + excess right := by
  simp only [excess, List.count_append]
  omega

theorem excess_cons_of_ne {character : Char} (opening : character ≠ '(')
    (closing : character ≠ ')') (text : List Char) :
    excess (character :: text) = excess text := by
  rw [excess, excess, List.count_cons_of_ne opening, List.count_cons_of_ne closing]

theorem excess_opening (text : List Char) : excess ('(' :: text) = excess text + 1 := by
  rw [excess, excess, List.count_cons_self, List.count_cons_of_ne (by decide)]
  omega

/-- Every parenthesis of a text has a partner in it. -/
structure Balanced (text : List Char) : Prop where
  total : excess text = 0
  front_nonneg : ∀ front back, text = front ++ back → 0 ≤ excess front

/-- Every occurrence of a character in a text stands inside parentheses. -/
def Sealed (mark : Char) (text : List Char) : Prop :=
  ∀ front back, text = front ++ mark :: back → 0 < excess front

namespace Balanced

theorem of_not_mem {text : List Char} (opening : '(' ∉ text) (closing : ')' ∉ text) :
    Balanced text := by
  have none : ∀ front, (∀ character ∈ front, character ∈ text) → excess front = 0 := by
    intro front inside
    rw [excess, List.count_eq_zero.mpr fun member => opening (inside _ member),
      List.count_eq_zero.mpr fun member => closing (inside _ member)]
    rfl
  constructor
  · exact none text fun _ member => member
  · rintro front back rfl
    exact Int.le_of_eq (none front fun _ member => List.mem_append_left _ member).symm

theorem nil : Balanced [] :=
  .of_not_mem List.not_mem_nil List.not_mem_nil

theorem append {left right : List Char} (leftBalanced : Balanced left)
    (rightBalanced : Balanced right) : Balanced (left ++ right) := by
  constructor
  · rw [excess_append, leftBalanced.total, rightBalanced.total]
    rfl
  · intro front back split
    obtain ⟨middle, rfl, same⟩ | ⟨middle, rfl, same⟩ := List.append_eq_append_iff.mp split
    · rw [excess_append, leftBalanced.total, Int.zero_add]
      exact rightBalanced.front_nonneg middle back same
    · exact leftBalanced.front_nonneg front middle rfl

theorem cons {character : Char} (opening : character ≠ '(') (closing : character ≠ ')')
    {text : List Char} (balanced : Balanced text) : Balanced (character :: text) := by
  have single : Balanced [character] :=
    .of_not_mem (mt List.mem_singleton.mp opening.symm)
      (mt List.mem_singleton.mp closing.symm)
  exact single.append balanced

theorem enclosed {text : List Char} (balanced : Balanced text) :
    Balanced ('(' :: text ++ [')']) := by
  constructor
  · rw [excess_append, excess_opening, balanced.total]
    rfl
  · intro front back split
    obtain ⟨middle, rfl, same⟩ | ⟨middle, inside, same⟩ :=
      List.append_eq_append_iff.mp split
    · obtain rfl | ⟨rfl, rfl⟩ : middle = [] ∨ middle = [')'] ∧ back = [] := by
        cases middle with
        | nil => exact .inl rfl
        | cons first rest =>
            obtain ⟨rfl, empty⟩ := List.cons_eq_cons.mp same
            obtain ⟨rfl, rfl⟩ := List.append_eq_nil_iff.mp empty.symm
            exact .inr ⟨rfl, rfl⟩
      · rw [List.append_nil, excess_opening, balanced.total]
        decide
      · rw [excess_append, excess_opening, balanced.total]
        decide
    · cases front with
      | nil => decide
      | cons first front =>
          obtain ⟨rfl, rfl⟩ := List.cons_eq_cons.mp inside
          have := balanced.front_nonneg front middle rfl
          rw [excess_opening]
          omega

end Balanced

namespace Sealed

variable {mark : Char}

theorem of_not_mem {text : List Char} (absent : mark ∉ text) : Sealed mark text := by
  intro front back split
  exact (absent (split ▸ List.mem_append_right front List.mem_cons_self)).elim

theorem append {left right : List Char} (balanced : Balanced left)
    (leftSealed : Sealed mark left) (rightSealed : Sealed mark right) :
    Sealed mark (left ++ right) := by
  intro front back split
  obtain ⟨middle, rfl, same⟩ | ⟨middle, rfl, same⟩ := List.append_eq_append_iff.mp split
  · rw [excess_append, balanced.total, Int.zero_add]
    exact rightSealed middle back same
  · cases middle with
    | nil =>
        have positive := rightSealed [] back same.symm
        rw [excess_nil] at positive
        exact (Int.lt_irrefl 0 positive).elim
    | cons first rest =>
        obtain ⟨rfl, rfl⟩ := List.cons_eq_cons.mp same
        exact leftSealed front rest rfl

theorem left {front back : List Char} (inside : Sealed mark (front ++ back)) :
    Sealed mark front := by
  intro start rest split
  apply inside start (rest ++ back)
  rw [split, List.append_assoc, List.cons_append]

theorem cons {character : Char} (opening : character ≠ '(') (closing : character ≠ ')')
    (other : character ≠ mark) {text : List Char} (inside : Sealed mark text) :
    Sealed mark (character :: text) := by
  have single : Balanced [character] := Balanced.cons opening closing .nil
  exact append single (.of_not_mem (mt List.mem_singleton.mp other.symm)) inside

theorem enclosed (opening : mark ≠ '(') (closing : mark ≠ ')') {text : List Char}
    (balanced : Balanced text) : Sealed mark ('(' :: text ++ [')']) := by
  intro front back split
  cases front with
  | nil => exact (opening (List.cons_eq_cons.mp split).1.symm).elim
  | cons first front =>
      obtain ⟨rfl, split'⟩ := List.cons_eq_cons.mp split
      obtain ⟨middle, rfl, same⟩ | ⟨middle, rfl, same⟩ := List.append_eq_append_iff.mp split'
      · cases middle with
        | nil => exact (closing (List.cons_eq_cons.mp same).1.symm).elim
        | cons first rest =>
            exact (List.append_ne_nil_of_right_ne_nil rest (List.cons_ne_nil mark back)
              (List.cons_eq_cons.mp same).2.symm).elim
      · have := balanced.front_nonneg front middle rfl
        rw [excess_opening]
        omega

/-- A later split of the same text would be a split of the sealed remainder. -/
theorem eq_nil_of_later {left right left' right' middle : List Char}
    (opening : mark ≠ '(') (closing : mark ≠ ')') (split : left' = left ++ middle)
    (rest : mark :: right = middle ++ mark :: right') (balanced : excess left = 0)
    (balanced' : excess left' = 0) (inside : Sealed mark right) : middle = [] := by
  cases middle with
  | nil => rfl
  | cons first middle =>
      rcases List.cons_eq_cons.mp rest with ⟨rfl, remainder⟩
      have positive := inside middle right' remainder
      rw [split, excess_append, balanced, excess_cons_of_ne opening closing] at balanced'
      omega

/-- A text with a character that is sealed on the right of a split outside of all
parentheses has no other such split. -/
theorem split_unique {left right left' right' : List Char} (opening : mark ≠ '(')
    (closing : mark ≠ ')') (same : left ++ mark :: right = left' ++ mark :: right')
    (balanced : excess left = 0) (balanced' : excess left' = 0)
    (inside : Sealed mark right) (inside' : Sealed mark right') :
    left = left' ∧ right = right' := by
  rcases List.append_eq_append_iff.mp same with ⟨middle, split, rest⟩ | ⟨middle, split, rest⟩
  · cases eq_nil_of_later opening closing split rest balanced balanced' inside
    rw [List.append_nil] at split
    exact ⟨split.symm, (List.cons_eq_cons.mp rest).2⟩
  · cases eq_nil_of_later opening closing split rest balanced' balanced inside'
    rw [List.append_nil] at split
    exact ⟨split, (List.cons_eq_cons.mp rest).2.symm⟩

/-- An earlier split of the same text would be a split of the sealed front. -/
theorem eq_nil_of_earlier {left right left' right' middle : List Char}
    (split : left' = left ++ middle) (rest : mark :: right = middle ++ mark :: right')
    (balanced : excess left = 0) (inside' : Sealed mark left') : middle = [] := by
  cases middle with
  | nil => rfl
  | cons first middle =>
      rcases List.cons_eq_cons.mp rest with ⟨rfl, -⟩
      have positive := inside' left middle split
      exact (Int.ne_of_gt positive balanced).elim

/-- The same from the left. -/
theorem split_unique_left {left right left' right' : List Char}
    (same : left ++ mark :: right = left' ++ mark :: right')
    (balanced : excess left = 0) (balanced' : excess left' = 0)
    (inside : Sealed mark left) (inside' : Sealed mark left') :
    left = left' ∧ right = right' := by
  rcases List.append_eq_append_iff.mp same with ⟨middle, split, rest⟩ | ⟨middle, split, rest⟩
  · cases eq_nil_of_earlier split rest balanced inside'
    rw [List.append_nil] at split
    exact ⟨split.symm, (List.cons_eq_cons.mp rest).2⟩
  · cases eq_nil_of_earlier split rest balanced' inside
    rw [List.append_nil] at split
    exact ⟨split, (List.cons_eq_cons.mp rest).2.symm⟩

end Sealed

end Stereograph.Shader

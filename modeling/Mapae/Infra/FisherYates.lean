import Mathlib.Data.List.Perm.Basic
import Mathlib.Data.List.Nodup

/-!
# Drawing without replacement

The plain Fisher-Yates draw: take the entry at a slot, put the last entry in its place and
shorten the array by one. Whatever the slots are, what was drawn and what is left are together
a rearrangement of the array at the start.
-/

namespace Mapae.Infra

open scoped List

universe u

variable {α : Type u}

namespace FisherYates

/-- Draws the entry at `slot`, when there is one. -/
def draw (a : List α) (slot : Nat) : Option (α × List α) := do
  let x ← a[slot]?
  let last ← a.getLast?
  some (x, (a.set slot last).dropLast)

theorem draw_eq_some {a : List α} {slot : Nat} (h : slot < a.length) :
    draw a slot =
      some (a[slot], (a.set slot (a[a.length - 1])).dropLast) := by
  have hlast : a.getLast? = some a[a.length - 1] := by
    rw [List.getLast?_eq_getElem?, List.getElem?_eq_getElem]
  simp only [draw, List.getElem?_eq_getElem h, hlast, Option.bind_eq_bind, Option.bind_some]

/-- **A draw only moves an entry out of the array.** -/
theorem draw_perm {a a' : List α} {slot : Nat} {x : α} (h : draw a slot = some (x, a')) :
    x :: a' ~ a := by
  obtain ⟨y, hy, h⟩ := Option.bind_eq_some_iff.mp h
  obtain ⟨last, hlast, h⟩ := Option.bind_eq_some_iff.mp h
  cases h
  obtain ⟨init, rfl⟩ := List.getLast?_eq_some_iff.mp hlast
  obtain ⟨hlt, rfl⟩ := List.getElem?_eq_some_iff.mp hy
  rw [List.length_append, List.length_singleton] at hlt
  by_cases hslot : slot < init.length
  · -- the last entry moves into the slot
    rw [List.set_append_left _ _ hslot, List.dropLast_concat, List.getElem_append_left hslot]
    calc init[slot] :: init.set slot last
        ~ init[slot] :: last :: init.eraseIdx slot := (List.set_perm_cons_eraseIdx hslot last).cons _
      _ ~ last :: init[slot] :: init.eraseIdx slot := List.Perm.swap _ _ _
      _ ~ last :: init := (List.getElem_cons_eraseIdx_perm hslot).cons _
      _ ~ init ++ [last] := (List.perm_append_singleton last init).symm
  · have hend : slot = init.length := by omega
    subst hend
    rw [List.set_append_right _ _ (Nat.le_refl _), Nat.sub_self, List.set_cons_zero,
      List.dropLast_concat, List.getElem_append_right (Nat.le_refl _)]
    simpa using (List.perm_append_singleton last init).symm

theorem length_of_draw {a a' : List α} {slot : Nat} {x : α} (h : draw a slot = some (x, a')) :
    a.length = a'.length + 1 := (draw_perm h).length_eq.symm

/-- Draws at one slot after the other, the newest first in the list: the entries drawn, and the
array that is left. -/
def shuffle (a : List α) : List Nat → List α × List α
  | [] => ([], a)
  | slot :: slots =>
    let (drawn, left) := shuffle a slots
    match draw left slot with
    | none => (drawn, left)
    | some (x, left') => (x :: drawn, left')

theorem shuffle_cons {a : List α} {slot : Nat} {slots : List Nat} {x : α} {left : List α}
    (h : draw (shuffle a slots).2 slot = some (x, left)) :
    shuffle a (slot :: slots) = (x :: (shuffle a slots).1, left) := by
  simp only [shuffle, h]

/-- **What was drawn and what is left are together what was there.** -/
theorem shuffle_perm (a : List α) (slots : List Nat) :
    (shuffle a slots).1 ++ (shuffle a slots).2 ~ a := by
  induction slots with
  | nil => exact List.Perm.refl a
  | cons slot slots ih =>
    simp only [shuffle]
    split
    · exact ih
    · next x left h =>
      calc x :: (shuffle a slots).1 ++ left
          ~ (shuffle a slots).1 ++ x :: left := List.perm_middle.symm
        _ ~ (shuffle a slots).1 ++ (shuffle a slots).2 := (draw_perm h).append_left _
        _ ~ a := ih

/-- Entries that differ are drawn at most once each. -/
theorem nodup_drawn {a : List α} (h : a.Nodup) (slots : List Nat) : (shuffle a slots).1.Nodup :=
  ((shuffle_perm a slots).nodup_iff.mpr h).of_append_left

theorem mem_of_drawn {a : List α} (slots : List Nat) {x : α} (h : x ∈ (shuffle a slots).1) :
    x ∈ a := (shuffle_perm a slots).mem_iff.mp (List.mem_append_left _ h)

/-- What is left was not drawn. -/
theorem not_drawn_of_left {a : List α} (hn : a.Nodup) {slots : List Nat} {x : α}
    (h : x ∈ (shuffle a slots).2) : x ∉ (shuffle a slots).1 := fun hx =>
  (List.nodup_append.mp ((shuffle_perm a slots).nodup_iff.mpr hn)).2.2 x hx x h rfl

end FisherYates

end Mapae.Infra

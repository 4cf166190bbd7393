/-
# A number that counts tasks

`Counts f n`: finitely many tasks have the property `f`, and `n` is how many.  A task that gains the
property adds one, a task that loses it takes one away, and any other change of the tasks leaves the
number alone.
-/
import Mathlib.Data.Finset.Card
import Mathlib.Logic.Function.Basic

namespace Effects

variable {ι : Type}

/-- `n` is the number of tasks with the property. -/
def Counts (f : ι → Bool) (n : Int) : Prop :=
  ∃ S : Finset ι, (∀ i, i ∈ S ↔ f i = true) ∧ n = S.card

namespace Counts

variable {f : ι → Bool} {n : Int}

theorem zero : Counts (fun _ : ι => false) 0 := ⟨∅, by simp, rfl⟩

/-- A number that counts a task is positive. -/
theorem pos (h : Counts f n) {i : ι} (hi : f i = true) : 0 < n := by
  obtain ⟨S, hS, hcard⟩ := h
  have hpos : 0 < S.card := Finset.card_pos.mpr ⟨i, (hS i).mpr hi⟩
  omega

/-- There is nobody to count. -/
theorem eq_zero (h : Counts f n) (hf : ∀ i, f i = false) : n = 0 := by
  obtain ⟨S, hS, hcard⟩ := h
  have hempty : S = ∅ := by
    refine Finset.eq_empty_of_forall_notMem fun i hi => ?_
    rw [hS, hf i] at hi
    exact absurd hi (by decide)
  rw [hcard, hempty, Finset.card_empty]
  rfl

variable [DecidableEq ι] {i : ι}

/-- A task gains the property. -/
theorem enter (h : Counts f n) (hi : f i = false) : Counts (Function.update f i true) (n + 1) := by
  obtain ⟨S, hS, hcard⟩ := h
  have hfresh : i ∉ S := by
    rw [hS, hi]
    decide
  refine ⟨insert i S, fun j => ?_, ?_⟩
  · rw [Finset.mem_insert, hS]
    by_cases hj : j = i
    · subst hj
      simp
    · simp [hj]
  · rw [Finset.card_insert_of_notMem hfresh]
    omega

/-- A task loses it. -/
theorem leave (h : Counts f n) (hi : f i = true) : Counts (Function.update f i false) (n - 1) := by
  have hpos := h.pos hi
  obtain ⟨S, hS, hcard⟩ := h
  have hmem : i ∈ S := (hS i).mpr hi
  refine ⟨S.erase i, fun j => ?_, ?_⟩
  · rw [Finset.mem_erase, hS]
    by_cases hj : j = i
    · subst hj
      simp
    · simp [hj]
  · rw [Finset.card_erase_of_mem hmem]
    omega

/-- A task that keeps what it has. -/
theorem keep (h : Counts f n) {b : Bool} (hi : f i = b) : Counts (Function.update f i b) n := by
  rw [← hi, Function.update_eq_self]
  exact h

end Counts

end Effects

import Hosted.Text.Blank
import Mathlib.Data.List.DropRight

/-!
# Texts without the white space around them

A text is white space, then a core that neither begins nor ends with white space, then white
space again. It has just one such core, and this is what trimming leaves of it.
-/

namespace Hosted

variable {text core : List Char}

/-- The core of a text, which stands between the white space at both its ends. -/
structure IsCore (text core : List Char) : Prop where
  around : ∃ front back,
    text = front ++ core ++ back ∧ (∀ c ∈ front, isBlank c) ∧ ∀ c ∈ back, isBlank c
  head : ∀ c ∈ core.head?, ¬isBlank c
  last : ∀ c ∈ core.getLast?, ¬isBlank c

theorem dropWhile_append_of_blank {front rest : List Char} (hfront : ∀ c ∈ front, isBlank c)
    (hrest : ∀ c ∈ rest.head?, ¬isBlank c) : (front ++ rest).dropWhile isBlank = rest := by
  rw [List.dropWhile_append_of_pos hfront]
  cases rest with
  | nil => rfl
  | cons c rest => exact List.dropWhile_cons_of_neg (hrest c rfl)

theorem isCore_trimBlank (text : List Char) : IsCore text (trimBlank text) := by
  change IsCore text ((text.dropWhile isBlank).rdropWhile isBlank)
  constructor
  case around =>
    refine ⟨text.takeWhile isBlank, (text.dropWhile isBlank).rtakeWhile isBlank, ?_, ?_, ?_⟩
    · rw [List.append_assoc, List.rdropWhile_append_rtakeWhile, List.takeWhile_append_dropWhile]
    · exact fun c => List.mem_takeWhile_imp
    · exact fun c => List.mem_rtakeWhile_imp
  case head =>
    intro c hc
    obtain ⟨back, hback⟩ := List.rdropWhile_prefix isBlank (text.dropWhile isBlank)
    have hstop := List.head?_dropWhile_not isBlank text
    rw [← hback, List.head?_append, Option.mem_def.1 hc] at hstop
    exact Bool.not_eq_true _ ▸ hstop
  case last =>
    intro c hc
    obtain ⟨hne, rfl⟩ := List.mem_getLast?_eq_getLast hc
    exact List.rdropWhile_last_not isBlank _ hne

theorem trimBlank_eq_nil (h : ∀ c ∈ text, isBlank c) : trimBlank text = [] := by
  rw [trimBlank, List.dropWhile_eq_nil_iff.2 h]
  rfl

theorem IsCore.trimBlank_eq (h : IsCore text core) : trimBlank text = core := by
  obtain ⟨⟨front, back, rfl, hfront, hback⟩, hhead, hlast⟩ := h
  cases core with
  | nil =>
      -- Nothing parts the two ends, so that the one before takes the one behind with it.
      apply trimBlank_eq_nil
      rw [List.append_nil]
      exact List.forall_mem_append.2 ⟨hfront, hback⟩
  | cons c core =>
      have hhead' : ∀ c' ∈ (c :: core ++ back).head?, ¬isBlank c' := hhead
      have hback' : ∀ c ∈ back.reverse, isBlank c := fun c hc => hback c (List.mem_reverse.1 hc)
      rw [← List.head?_reverse] at hlast
      rw [trimBlank, List.append_assoc, dropWhile_append_of_blank hfront hhead',
        List.reverse_append, dropWhile_append_of_blank hback' hlast, List.reverse_reverse]

theorem trimBlank_eq_iff : trimBlank text = core ↔ IsCore text core :=
  ⟨fun h => h ▸ isCore_trimBlank text, IsCore.trimBlank_eq⟩

theorem trimBlank_eq_nil_iff : trimBlank text = [] ↔ ∀ c ∈ text, isBlank c := by
  constructor
  · intro h
    obtain ⟨front, back, rfl, hfront, hback⟩ := (trimBlank_eq_iff.1 h).around
    rw [List.append_nil]
    exact List.forall_mem_append.2 ⟨hfront, hback⟩
  · exact trimBlank_eq_nil

end Hosted

import Hosted.Json.Printer
import Hosted.Proofs.Json.RoundTrip
import Mathlib.Tactic.SplitIfs

/-!
# Values on one line

The compact text of a value holds no line feed: a string escapes those it has, and nothing
else is written with one.
-/

namespace Hosted.Json

variable {c : Char} {items : List Value} {fields : List (String × Value)} {v : Value}

theorem newline_not_mem_digits (n : Nat) : '\n' ∉ digits n :=
  fun h => ne_of_isDigit (isDigit_of_mem_digits h) (by decide) rfl

theorem newline_ne_digitChar : ∀ d < 16, '\n' ≠ Nat.digitChar d := by decide

theorem newline_not_mem_escapeChar (c : Char) : '\n' ∉ escapeChar c := by
  by_cases hc : c = '\n'
  · rw [hc]
    decide
  · have hhigh : c.toNat < 0x20 → '\n' ≠ Nat.digitChar (c.toNat / 16) :=
      fun h => newline_ne_digitChar _ (by omega)
    have hlow := newline_ne_digitChar (c.toNat % 16) (by omega)
    have hc' : '\n' ≠ c := fun h => hc h.symm
    fun_cases escapeChar c <;> simp_all

theorem newline_not_mem_renderString (s : String) : '\n' ∉ renderString s := by
  simp [renderString, newline_not_mem_escapeChar]

theorem newline_not_mem_layout {ds : List Char} (h : '\n' ∉ ds) (k : Int) :
    '\n' ∉ Double.layout ds k := by
  have htake : ∀ n, '\n' ∉ ds.take n := fun n hmem => h (List.mem_of_mem_take hmem)
  have hdrop : ∀ n, '\n' ∉ ds.drop n := fun n hmem => h (List.mem_of_mem_drop hmem)
  have hpower := newline_not_mem_digits
  unfold Double.layout
  dsimp only
  split_ifs
  · simp [h]
  · simp [htake, hdrop]
  · simp [h]
  · rcases ds with _ | ⟨d, _ | ⟨d', rest⟩⟩ <;> simp_all
  · rcases ds with _ | ⟨d, _ | ⟨d', rest⟩⟩ <;> simp_all

theorem newline_not_mem_render_number (n : Number) : '\n' ∉ n.render := by
  cases n with
  | integer i =>
      change '\n' ∉ renderInteger i
      unfold renderInteger
      split_ifs <;> simp [newline_not_mem_digits]
  | double bits =>
      change '\n' ∉ Double.text bits
      have hlayout := newline_not_mem_layout (newline_not_mem_digits
        (Double.shortest (Double.mantissa bits) (Double.binaryExponent bits)).1)
      unfold Double.text
      dsimp only
      split_ifs <;> simp [hlayout]

mutual

theorem newline_not_mem_render : ∀ v : Value, '\n' ∉ v.render
  | .null => by simp [Value.render]
  | .bool true => by simp [Value.render]
  | .bool false => by simp [Value.render]
  | .number n => newline_not_mem_render_number n
  | .string s => newline_not_mem_renderString s
  | .array [] => by simp [Value.render]
  | .array (v :: items) => by
      simp [Value.render, newline_not_mem_render v, newline_not_mem_renderItems items]
  | .object [] => by simp [Value.render]
  | .object ((name, v) :: fields) => by
      simp [Value.render, newline_not_mem_renderString, newline_not_mem_render v,
        newline_not_mem_renderFields fields]

theorem newline_not_mem_renderItems : ∀ items : List Value, '\n' ∉ renderItems items
  | [] => by simp [renderItems]
  | v :: items => by
      simp [renderItems, newline_not_mem_render v, newline_not_mem_renderItems items]

theorem newline_not_mem_renderFields :
    ∀ fields : List (String × Value), '\n' ∉ renderFields fields
  | [] => by simp [renderFields]
  | (name, v) :: fields => by
      simp [renderFields, newline_not_mem_renderString, newline_not_mem_render v,
        newline_not_mem_renderFields fields]

end

end Hosted.Json

import Hosted.Proofs.Log.RoundTrip
import Hosted.Proofs.Text.Blank
import Mathlib.Data.List.Forall2

/-!
# The words for a level

A setting gives a level by its name, or by the other word that one of the levels has. White space
around the word does not count, and neither does the case of its ASCII letters. Any other text
gives no level.
-/

namespace Hosted

/-- `c` is the capital of the small ASCII letter `d`. -/
def IsCapitalOf (c d : Char) : Prop := 'A' ≤ c ∧ c ≤ 'Z' ∧ d.toNat = c.toNat + 32

/-- Two characters that are the same but for the case of an ASCII letter. -/
def SameLetter (c d : Char) : Prop := c = d ∨ IsCapitalOf c d ∨ IsCapitalOf d c

theorem isCapitalOf_iff (c d : Char) :
    IsCapitalOf c d ↔ (65 ≤ c.toNat ∧ c.toNat ≤ 90) ∧ d.toNat = c.toNat + 32 := by
  rw [IsCapitalOf, ← and_assoc, Char.le_def, Char.le_def, UInt32.le_iff_toNat_le,
    UInt32.le_iff_toNat_le]
  exact Iff.rfl

theorem toNat_toLower (c : Char) :
    c.toLower.toNat = if 65 ≤ c.toNat ∧ c.toNat ≤ 90 then c.toNat + 32 else c.toNat := by
  unfold Char.toLower
  split
  case isTrue h =>
    -- The sum is far from the end of the 32 bits of a character.
    have hbounds : 65 ≤ c.toNat ∧ c.toNat ≤ 90 := h
    rw [if_pos hbounds]
    change (c.val + 32).toNat = c.val.toNat + 32
    rw [UInt32.toNat_add]
    exact Nat.mod_eq_of_lt (Nat.lt_of_le_of_lt (Nat.add_le_add_right hbounds.2 32) (by decide))
  case isFalse h => exact (if_neg h).symm

theorem toLower_eq_toLower_iff (c d : Char) : c.toLower = d.toLower ↔ SameLetter c d := by
  rw [← Char.toNat_inj, toNat_toLower, toNat_toLower, SameLetter, ← Char.toNat_inj,
    isCapitalOf_iff, isCapitalOf_iff]
  split_ifs <;> omega

theorem map_toLower_eq_iff (cs ds : List Char) :
    cs.map Char.toLower = ds.map Char.toLower ↔ List.Forall₂ SameLetter cs ds := by
  rw [← List.forall₂_eq_eq_eq, List.forall₂_map_left_iff, List.forall₂_map_right_iff]
  simp only [toLower_eq_toLower_iff]

namespace Log.Level

/-- The words that a setting may use for a level. -/
def words : Level → List String
  | warn => ["warn", "warning"]
  | l => [l.name]

/-- A setting names a level. -/
def IsNamed (setting : String) (l : Level) : Prop :=
  ∃ core, IsCore setting.toList core ∧ ∃ word ∈ l.words, List.Forall₂ SameLetter core word.toList

theorem toLower_words (l : Level) :
    ∀ word ∈ l.words, word.toList.map Char.toLower = word.toList := by
  cases l <;> decide

theorem ofName?_eq_some_iff (word : String) (l : Level) :
    ofName? word = some l ↔ l.name = word := by
  constructor
  · intro h
    have hname := List.find?_some h
    exact eq_of_beq hname
  · rintro rfl
    exact ofName?_levelName l

theorem mem_words_iff (l : Level) (word : String) :
    word ∈ l.words ↔ (if word = "warning" then some warn else ofName? word) = some l := by
  split_ifs with h
  · rw [h]
    cases l <;> decide
  · rw [ofName?_eq_some_iff]
    cases l <;> simp [words, name, h, eq_comm]

theorem ofList_toLower_eq_iff {l : Level} {word : String} (hword : word ∈ l.words)
    (core : List Char) :
    String.ofList (core.map Char.toLower) = word ↔ List.Forall₂ SameLetter core word.toList := by
  rw [← map_toLower_eq_iff, toLower_words l word hword, ← String.toList_inj, String.toList_ofList]

/-- A setting gives the level that it names, and none if it names none. -/
theorem ofSetting?_eq_some_iff (setting : String) (l : Level) :
    ofSetting? setting = some l ↔ IsNamed setting l := by
  -- The words are in small letters, so that the setting is one of them once it is in small letters.
  refine Iff.trans (mem_words_iff l _).symm ?_
  constructor
  · intro h
    exact ⟨_, isCore_trimBlank _, _, h, (ofList_toLower_eq_iff h _).1 rfl⟩
  · rintro ⟨core, hcore, word, hword, hsame⟩
    rw [hcore.trimBlank_eq, (ofList_toLower_eq_iff hword core).2 hsame]
    exact hword

end Log.Level

end Hosted

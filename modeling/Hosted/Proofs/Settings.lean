import Hosted.Proofs.Log.LevelNames
import Hosted.Proofs.Text.Numerals
import Hosted.Settings

/-!
# What the settings accept

Each setting has a grammar for the value of its variable. A value of the grammar sets it, and any
other value leaves it at its default, as does a variable that is not set. No setting looks at the
variable of another one.
-/

namespace Hosted.Settings

variable {lookup : String → Option String} {s t : Settings}

/-- A value of the variable sets the slot limit to `n`. -/
def SetsSlotLimit (value : String) (n : Nat) : Prop :=
  (∃ core, IsCore value.toList core ∧ IsNumeral core n) ∧ 1 ≤ n ∧ n < 2 ^ 64

/-- The settings that an environment describes by the values of the three variables. -/
structure Follows (lookup : String → Option String) (s : Settings) : Prop where
  slotLimit (n : Nat) : s.slotLimit = n ↔
    (∃ value, lookup slotLimitVariable = some value ∧ SetsSlotLimit value n) ∨
      n = 1088 ∧ ¬∃ m value, lookup slotLimitVariable = some value ∧ SetsSlotLimit value m
  logLevel (l : Log.Level) : s.logLevel = some l ↔
    ∃ value, lookup logLevelVariable = some value ∧ l.IsNamed value
  logFile (path : String) : s.logFile = some path ↔
    lookup logFileVariable = some path ∧ ∃ c ∈ path.toList, ¬isBlank c

/-- An environment describes its settings completely. -/
theorem Follows.unique (hs : Follows lookup s) (ht : Follows lookup t) : s = t := by
  have hslots : s.slotLimit = t.slotLimit := (hs.slotLimit _).2 ((ht.slotLimit _).1 rfl)
  have hlevel : s.logLevel = t.logLevel :=
    Option.ext fun l => (hs.logLevel l).trans (ht.logLevel l).symm
  have hfile : s.logFile = t.logFile :=
    Option.ext fun path => (hs.logFile path).trans (ht.logFile path).symm
  cases s
  cases t
  congr

/-! ## One value -/

theorem slotLimit?_eq_some_iff (value : String) (n : Nat) :
    slotLimit? value = some n ↔ SetsSlotLimit value n := by
  have hread : slotLimit? value = some n ↔ readWord? (trimBlank value.toList) = some n ∧ 1 ≤ n := by
    unfold slotLimit?
    cases readWord? (trimBlank value.toList) with
    | none => exact ⟨nofun, nofun⟩
    | some m =>
        rw [Option.ite_none_right_eq_some, Option.some_inj]
        constructor
        · rintro ⟨hpos, rfl⟩
          exact ⟨rfl, hpos⟩
        · rintro ⟨rfl, hpos⟩
          exact ⟨hpos, rfl⟩
  rw [hread, readWord?_eq_some_iff, SetsSlotLimit]
  constructor
  · rintro ⟨⟨hnumeral, hlt⟩, hpos⟩
    exact ⟨⟨_, isCore_trimBlank _, hnumeral⟩, hpos, hlt⟩
  · rintro ⟨⟨core, hcore, hnumeral⟩, hpos, hlt⟩
    exact ⟨⟨hcore.trimBlank_eq ▸ hnumeral, hlt⟩, hpos⟩

theorem logFile?_eq_some_iff (value path : String) :
    logFile? value = some path ↔ value = path ∧ ∃ c ∈ path.toList, ¬isBlank c := by
  rw [logFile?, Option.ite_none_left_eq_some, trimBlank_eq_nil_iff, Option.some_inj]
  simp only [not_forall, exists_prop]
  constructor
  · rintro ⟨hsome, rfl⟩
    exact ⟨rfl, hsome⟩
  · rintro ⟨rfl, hsome⟩
    exact ⟨hsome, rfl⟩

/-! ## The environment -/

theorem follows_ofLookup (lookup : String → Option String) : Follows lookup (ofLookup lookup) where
  slotLimit n := by
    have hset (n : Nat) : (lookup slotLimitVariable).bind slotLimit? = some n ↔
        ∃ value, lookup slotLimitVariable = some value ∧ SetsSlotLimit value n := by
      simp only [Option.bind_eq_some_iff, slotLimit?_eq_some_iff]
    have hunset : (lookup slotLimitVariable).bind slotLimit? = none ↔
        ¬∃ m value, lookup slotLimitVariable = some value ∧ SetsSlotLimit value m := by
      rw [Option.eq_none_iff_forall_ne_some, not_exists]
      exact forall_congr' fun m => not_congr (hset m)
    change ((lookup slotLimitVariable).bind slotLimit?).getD 1088 = n ↔ _
    rw [Option.getD_eq_iff, hset, hunset, and_comm, @eq_comm _ 1088]
  logLevel l := by
    simp only [ofLookup, Option.bind_eq_some_iff, Log.Level.ofSetting?_eq_some_iff]
  logFile path := by
    simp only [ofLookup, Option.bind_eq_some_iff, logFile?_eq_some_iff]
    constructor
    · rintro ⟨value, hvalue, rfl, hsome⟩
      exact ⟨hvalue, hsome⟩
    · rintro ⟨hvalue, hsome⟩
      exact ⟨path, hvalue, rfl, hsome⟩

theorem slotLimit_pos (lookup : String → Option String) : 0 < (ofLookup lookup).slotLimit := by
  rcases ((follows_ofLookup lookup).slotLimit _).1 rfl with ⟨value, -, hset⟩ | ⟨hdefault, -⟩
  · exact hset.2.1
  · rw [hdefault]
    decide

/-- The settings are those that the environment describes. There are slots under every
environment, and environments that agree on a variable agree on its setting. -/
theorem accepts_exactly (lookup : String → Option String) :
    (∀ s, ofLookup lookup = s ↔ Follows lookup s) ∧ 0 < (ofLookup lookup).slotLimit ∧
      ∀ other : String → Option String,
        (other slotLimitVariable = lookup slotLimitVariable →
          (ofLookup other).slotLimit = (ofLookup lookup).slotLimit) ∧
        (other logLevelVariable = lookup logLevelVariable →
          (ofLookup other).logLevel = (ofLookup lookup).logLevel) ∧
        (other logFileVariable = lookup logFileVariable →
          (ofLookup other).logFile = (ofLookup lookup).logFile) := by
  refine ⟨fun s => ⟨?_, (follows_ofLookup lookup).unique⟩, slotLimit_pos lookup, fun other => ?_⟩
  · rintro rfl
    exact follows_ofLookup lookup
  · refine ⟨fun h => ?_, fun h => ?_, fun h => ?_⟩ <;> simp only [ofLookup, h]

/-- One variable of three is enough for its setting. -/
theorem accepts_exactly_alone :
    let lookup : String → Option String := fun name =>
      if name = slotLimitVariable then some "\u3000+00128\n"
      else if name = logLevelVariable then some "\tWarNing "
      else some " log file "
    let alone (name : String) : String → Option String := fun other =>
      if other = name then lookup other else none
    (ofLookup (alone slotLimitVariable)).slotLimit = 128 ∧
      (ofLookup (alone logLevelVariable)).logLevel = some .warn ∧
      (ofLookup (alone logFileVariable)).logFile = some " log file " := by
  intro lookup alone
  have hall : ofLookup lookup =
      { slotLimit := 128, logLevel := some .warn, logFile := some " log file " } := by
    decide
  obtain ⟨-, -, hother⟩ := accepts_exactly lookup
  rw [hall] at hother
  exact ⟨(hother (alone slotLimitVariable)).1 rfl, (hother (alone logLevelVariable)).2.1 rfl,
    (hother (alone logFileVariable)).2.2 rfl⟩

/-- No number, one that is too small or too large, and the largest one behind zeros. -/
example :
    ["0", "", "+", "++5", "-3", "1 2", "18446744073709551616", "0000018446744073709551615"].map
      slotLimit? = [none, none, none, none, none, none, none, some 18446744073709551615] := by
  decide

end Hosted.Settings

import Hosted.Proofs.Json.RoundTrip
import Hosted.Proofs.Text.Utf8
import Mathlib.Data.String.Basic

/-!
# What values are read

Whatever text a value is read from, it is a value that could be written again: its containers
nest no deeper than the reader allows, its integers have 64 bits, and the fields of an object
are in the order of their names, each name once. Without floating-point numbers such a value
reads back from its own text.
-/

namespace Hosted.Json

variable {α β : Type} {v : Value} {fields : List (String × Value)} {depth : Nat}
  {cs rest bound : List Char} {name : String} {n : Nat}

namespace Value

/-- Containers nest at most `depth` deep, integers have 64 bits, and the fields of an object
are in the order of their names. -/
inductive Readable : Nat → Value → Prop
  | null {depth : Nat} : Readable depth .null
  | bool {depth : Nat} (b : Bool) : Readable depth (.bool b)
  | integer {depth : Nat} {i : Int} (hlow : -2 ^ 63 ≤ i) (hhigh : i < 2 ^ 64) :
      Readable depth (.number (.integer i))
  | double {depth : Nat} (bits : UInt64) : Readable depth (.number (.double bits))
  | string {depth : Nat} (s : String) : Readable depth (.string s)
  | array {depth : Nat} {items : List Value} (h : ∀ v ∈ items, Readable depth v) :
      Readable (depth + 1) (.array items)
  | object {depth : Nat} {fields : List (String × Value)}
      (hsorted : fields.Pairwise fun f g => f.1 < g.1) (h : ∀ f ∈ fields, Readable depth f.2) :
      Readable (depth + 1) (.object fields)

/-- There is no floating-point number in the value. -/
inductive FloatFree : Value → Prop
  | null : FloatFree .null
  | bool (b : Bool) : FloatFree (.bool b)
  | integer (i : Int) : FloatFree (.number (.integer i))
  | string (s : String) : FloatFree (.string s)
  | array {items : List Value} (h : ∀ v ∈ items, FloatFree v) : FloatFree (.array items)
  | object {fields : List (String × Value)} (h : ∀ f ∈ fields, FloatFree f.2) :
      FloatFree (.object fields)

theorem Readable.plain (h : v.Readable depth) (hfree : v.FloatFree) : v.Plain depth := by
  induction h with
  | null => exact .null
  | bool b => exact .bool b
  | integer hlow hhigh => exact .integer hlow hhigh
  | double bits => cases hfree
  | string s => exact .string s
  | array _ ih =>
      cases hfree with
      | array hfree => exact .array fun v hv => ih v hv (hfree v hv)
  | object hsorted _ ih =>
      cases hfree with
      | object hfree => exact .object hsorted fun f hf => ih f hf (hfree f hf)

/-! ## Ordered fields -/

theorem mem_putField {f : String × Value} (h : f ∈ putField name v fields) :
    f = (name, v) ∨ f ∈ fields := by
  induction fields with
  | nil => exact Or.inl (List.mem_singleton.1 h)
  | cons g fields ih =>
      rw [putField] at h
      split_ifs at h
      · exact List.mem_cons.1 h
      · exact (List.mem_cons.1 h).imp_right (List.mem_cons_of_mem _)
      · rcases List.mem_cons.1 h with rfl | htail
        · exact Or.inr List.mem_cons_self
        · exact (ih htail).imp_right (List.mem_cons_of_mem _)

theorem sorted_putField (hsorted : fields.Pairwise fun f g => f.1 < g.1) (name : String)
    (v : Value) : (putField name v fields).Pairwise fun f g => f.1 < g.1 := by
  induction fields with
  | nil => exact List.pairwise_singleton _ _
  | cons g fields ih =>
      obtain ⟨hg, hfields⟩ := List.pairwise_cons.1 hsorted
      rw [putField]
      split_ifs with hlt heq
      · refine List.pairwise_cons.2 ⟨?_, hsorted⟩
        intro f hf
        rcases List.mem_cons.1 hf with rfl | hf
        · exact hlt
        · exact lt_trans hlt (hg f hf)
      · subst heq
        exact List.pairwise_cons.2 ⟨hg, hfields⟩
      · refine List.pairwise_cons.2 ⟨?_, ih hfields⟩
        intro f hf
        rcases mem_putField hf with rfl | hf
        · exact lt_of_le_of_ne (not_lt.1 hlt) (Ne.symm heq)
        · exact hg f hf

theorem mem_foldl_putField {f : String × Value} {ordered : List (String × Value)}
    (h : f ∈ fields.foldl (fun ordered f => putField f.1 f.2 ordered) ordered) :
    f ∈ ordered ∨ f ∈ fields := by
  induction fields generalizing ordered with
  | nil => exact Or.inl h
  | cons g fields ih =>
      rcases ih h with hput | hf
      · rcases mem_putField hput with rfl | hf
        · exact Or.inr List.mem_cons_self
        · exact Or.inl hf
      · exact Or.inr (List.mem_cons_of_mem _ hf)

theorem sorted_foldl_putField {ordered : List (String × Value)}
    (hsorted : ordered.Pairwise fun f g => f.1 < g.1) (fields : List (String × Value)) :
    (fields.foldl (fun ordered f => putField f.1 f.2 ordered) ordered).Pairwise
      fun f g => f.1 < g.1 := by
  induction fields generalizing ordered with
  | nil => exact hsorted
  | cons g fields ih => exact ih (sorted_putField hsorted g.1 g.2)

/-- Of several fields with one name one is left. -/
theorem readable_ofFields (h : ∀ f ∈ fields, f.2.Readable depth) :
    (ofFields fields).Readable (depth + 1) := by
  refine .object (sorted_foldl_putField List.Pairwise.nil fields) fun f hf => ?_
  exact h f ((mem_foldl_putField hf).resolve_left List.not_mem_nil)

end Value

/-! ## Integers -/

theorem collectDigits_lt (hn : n < UInt64.size) (ds : List Char) :
    (collectDigits n ds).1 < UInt64.size := by
  induction ds generalizing n with
  | nil => exact hn
  | cons d ds ih =>
      rw [collectDigits]
      split
      · next hnext => exact ih hnext
      · exact hn

theorem readable_number? {negative : Bool} {numeral : Numeral} {number : Number}
    (h : numeral.number? negative = some number) (depth : Nat) :
    (Value.number number).Readable depth := by
  have hlt := collectDigits_lt (n := 0) (by decide) numeral.whole
  simp only [UInt64.size] at hlt
  rw [Numeral.number?] at h
  split_ifs at h with hinteger hnegative
  · obtain ⟨-, -, -, hsign⟩ := hinteger
    rw [hnegative] at hsign
    obtain ⟨-, hle⟩ := hsign.resolve_left Bool.false_ne_true
    simp only [UInt64.size] at hle
    rw [← Option.some.inj h]
    exact .integer (by omega) (by omega)
  · rw [← Option.some.inj h]
    exact .integer (by omega) (by omega)
  · obtain ⟨bits, -, rfl⟩ := Option.map_eq_some_iff.1 h
    exact .double bits

/-! ## What a reader answers -/

theorem Reading.exists_of_map_eq_ok {f : α → β} {r : Reading α} {b : β}
    (h : r.map f = .ok (b, rest)) : ∃ a, r = .ok (a, rest) ∧ f a = b := by
  cases r with
  | error d => cases h
  | ok answer =>
      obtain ⟨a, rest'⟩ := answer
      obtain ⟨rfl, rfl⟩ := Prod.mk.inj (Except.ok.inj h)
      exact ⟨a, rfl, rfl⟩

/-- What holds of all that the reader of the items answers holds of every item. -/
theorem forall_mem_readItems {item : List Char → Reading α} {P : α → Prop}
    (hitem : ∀ {cs a rest}, item cs = .ok (a, rest) → P a) {first : Bool} {as : List α}
    (h : readItems item bound first cs = .ok (as, rest)) : ∀ a ∈ as, P a := by
  induction bound generalizing first as cs with
  | nil => cases h
  | cons b bound ih =>
      rw [readItems] at h
      split at h
      · cases h
      · obtain ⟨rfl, -⟩ := Prod.mk.inj (Except.ok.inj h)
        exact List.forall_mem_nil _
      · split at h
        · cases h
        · next hread =>
            obtain ⟨as', hrest, rfl⟩ := Reading.exists_of_map_eq_ok h
            exact List.forall_mem_cons.2 ⟨hitem hread, ih hrest⟩

theorem forall_mem_readFields {name : List Char → Reading α} {item : List Char → Reading β}
    {P : β → Prop} (hitem : ∀ {cs b rest}, item cs = .ok (b, rest) → P b) {first : Bool}
    {fields : List (α × β)} (h : readFields name item bound first cs = .ok (fields, rest)) :
    ∀ f ∈ fields, P f.2 := by
  induction bound generalizing first fields cs with
  | nil => cases h
  | cons b bound ih =>
      rw [readFields] at h
      split at h
      · cases h
      · obtain ⟨rfl, -⟩ := Prod.mk.inj (Except.ok.inj h)
        exact List.forall_mem_nil _
      · split at h
        · cases h
        split at h
        · cases h
        split at h
        · cases h
        · next hread =>
            obtain ⟨fields', hrest, rfl⟩ := Reading.exists_of_map_eq_ok h
            exact List.forall_mem_cons.2 ⟨hitem hread, ih hrest⟩

/-- The kinds of value that are read. Only a text that begins with an `n` is read as `null`. -/
theorem readValue_eq_ok (h : readValue depth cs = .ok (v, rest)) :
    (v = .null ∧ ∃ cs', skipSpace cs = 'n' :: cs') ∨ (∃ b, v = .bool b) ∨
      (∃ negative cs' number, v = .number number ∧ readNumber negative cs' = .ok (number, rest)) ∨
      (∃ s, v = .string s) ∨
      (∃ inner cs' items, depth = inner + 1 ∧ v = .array items ∧
        readItems (readValue inner) cs' true cs' = .ok (items, rest)) ∨
      ∃ inner cs' fields, depth = inner + 1 ∧ v = Value.ofFields fields ∧
        readFields readString (readValue inner) cs' true cs' = .ok (fields, rest) := by
  rw [readValue] at h
  cases hskip : skipSpace cs with
  | nil =>
      rw [hskip] at h
      cases h
  | cons c cs' =>
      rw [hskip] at h
      simp only at h
      by_cases hn : c = 'n'
      · rw [if_pos hn] at h
        obtain ⟨_, -, hnull⟩ := Utf8.exists_of_map_eq_ok h
        exact Or.inl ⟨(congrArg Prod.fst hnull).symm, cs', by rw [hn]⟩
      rw [if_neg hn] at h
      refine Or.inr ?_
      by_cases ht : c = 't'
      · rw [if_pos ht] at h
        obtain ⟨_, -, hbool⟩ := Utf8.exists_of_map_eq_ok h
        exact Or.inl ⟨true, (congrArg Prod.fst hbool).symm⟩
      rw [if_neg ht] at h
      by_cases hf : c = 'f'
      · rw [if_pos hf] at h
        obtain ⟨_, -, hbool⟩ := Utf8.exists_of_map_eq_ok h
        exact Or.inl ⟨false, (congrArg Prod.fst hbool).symm⟩
      rw [if_neg hf] at h
      refine Or.inr ?_
      by_cases hminus : c = '-'
      · rw [if_pos hminus] at h
        obtain ⟨number, hread, rfl⟩ := Reading.exists_of_map_eq_ok h
        exact Or.inl ⟨_, _, number, rfl, hread⟩
      rw [if_neg hminus] at h
      by_cases hdigit : isDigit c = true
      · rw [if_pos hdigit] at h
        obtain ⟨number, hread, rfl⟩ := Reading.exists_of_map_eq_ok h
        exact Or.inl ⟨_, _, number, rfl, hread⟩
      rw [if_neg hdigit] at h
      refine Or.inr ?_
      by_cases hquote : c = '"'
      · rw [if_pos hquote] at h
        obtain ⟨s, -, rfl⟩ := Reading.exists_of_map_eq_ok h
        exact Or.inl ⟨s, rfl⟩
      rw [if_neg hquote] at h
      refine Or.inr ?_
      by_cases hbracket : c = '['
      · rw [if_pos hbracket] at h
        cases depth with
        | zero => cases h
        | succ inner =>
            obtain ⟨items, hread, rfl⟩ := Reading.exists_of_map_eq_ok h
            exact Or.inl ⟨inner, _, items, rfl, rfl, hread⟩
      rw [if_neg hbracket] at h
      refine Or.inr ?_
      by_cases hbrace : c = '\x7b'
      · rw [if_pos hbrace] at h
        cases depth with
        | zero => cases h
        | succ inner =>
            obtain ⟨fields, hread, rfl⟩ := Reading.exists_of_map_eq_ok h
            exact ⟨inner, _, fields, rfl, rfl, hread⟩
      rw [if_neg hbrace] at h
      cases h

theorem readable_of_readNumber {negative : Bool} {number : Number}
    (h : readNumber negative cs = .ok (number, rest)) (depth : Nat) :
    (Value.number number).Readable depth := by
  rw [readNumber] at h
  split at h
  · cases h
  · split at h
    · next hnumber =>
        obtain ⟨rfl, -⟩ := Prod.mk.inj (Except.ok.inj h)
        exact readable_number? hnumber depth
    · cases h

/-- What is read where containers may nest `depth` deep. -/
theorem readable_of_readValue (h : readValue depth cs = .ok (v, rest)) : v.Readable depth := by
  induction depth using Nat.strongRecOn generalizing v cs rest with
  | ind depth ih =>
      rcases readValue_eq_ok h with ⟨rfl, -⟩ | ⟨b, rfl⟩ | ⟨_, _, number, rfl, hread⟩ | ⟨s, rfl⟩ |
        ⟨inner, _, items, rfl, rfl, hread⟩ | ⟨inner, _, fields, rfl, rfl, hread⟩
      · exact .null
      · exact .bool b
      · exact readable_of_readNumber hread depth
      · exact .string s
      · exact .array (forall_mem_readItems (ih inner (Nat.lt_succ_self inner)) hread)
      · exact Value.readable_ofFields
          (forall_mem_readFields (ih inner (Nat.lt_succ_self inner)) hread)

end Hosted.Json

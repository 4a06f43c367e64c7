import Hosted.Proofs.Session.SlotTables

/-!
# Handles of any value

The fields of a slot handle are open, so that a caller can ask a table about any index
and any number. A `SlotUse` is a course of a session in which handles of any value are
released, whoever takes and gives slots: callers, or thread locals that are made and
dropped. A table knows the handles that are out of it from all others but one kind: with
the number 0, the mark of a free index, a handle passes for live wherever the index has
been given out before and is free. Releasing it takes nothing from the table, but it is
answered and counted like a release.
-/

namespace Hosted

namespace SlotEvent

variable {es : List SlotEvent} {e : SlotEvent} {table : Ref} {h : SlotHandle} {i : Nat}

/-- The handle was allocated from the table, and the name of the table has not been given
to a new one since. -/
def Given (table : Ref) (h : SlotHandle) (es : List SlotEvent) : Prop :=
  ∃ before after, es = before ++ allocated table (.ok h) :: after ∧
    ∀ e ∈ after, ∀ name limit, table = .named name → e ≠ made name limit

/-- The index has been given out by the table, but no handle that is out has it. -/
structure Vacant (table : Ref) (i : Nat) (es : List SlotEvent) : Prop where
  given : ∃ h, Given table h es ∧ h.index = i
  free : ∀ h, Out table h es → h.index ≠ i

theorem given_snoc : Given table h (es ++ [e]) ↔ e = .allocated table (.ok h) ∨
    (Given table h es ∧ ∀ name limit, table = .named name → e ≠ .made name limit) :=
  since_snoc

theorem given_snoc_allocated (other : Ref) (g : SlotHandle) :
    Given table h (es ++ [allocated other (.ok g)]) ↔
      (table = other ∧ h = g) ∨ Given table h es := by
  simp [given_snoc, eq_comm]

theorem given_snoc_made (name : String) (limit : Nat) :
    Given table h (es ++ [made name limit]) ↔ Given table h es ∧ table ≠ .named name := by
  rw [given_snoc]
  constructor
  · rintro (heq | ⟨hgiven, hmade⟩)
    · cases heq
    · exact ⟨hgiven, fun htable => hmade name limit htable rfl⟩
  · rintro ⟨hgiven, htable⟩
    refine Or.inr ⟨hgiven, fun name' limit' htable' heq => ?_⟩
    cases heq
    exact htable htable'

theorem given_snoc_released (other : Ref) (g : SlotHandle) (answer : Bool) :
    Given table h (es ++ [released other g answer]) ↔ Given table h es := by
  simp [given_snoc]

end SlotEvent

namespace Session

/-- The session goes from `start` to `s` through the events. Slots are taken and given
back on any way that goes through the tables, and the handles released may be any. -/
inductive SlotUse (start : Session) : List SlotEvent → Session → Prop where
  | nil : SlotUse start [] start
  | elsewhere {es s s'} : SlotUse start es s →
      (∀ table, s'.slotTable? table = s.slotTable? table) →
      s.world.locals.nextSeq ≤ s'.world.locals.nextSeq → SlotUse start es s'
  | made {es s} (name limit) : SlotUse start es s →
      SlotUse start (es ++ [.made name (limit.getD s.world.settings.slotLimit)])
        (s.slotStep (.makeTable name limit)).1
  | allocated {es s s' body body' h} (table) : SlotUse start es s →
      s.slotTable? table = some body →
      body.allocate s.world.locals.nextSeq = .ok (h, body') →
      s.PutsTable table body' (s.world.locals.nextSeq + 1) s' →
      SlotUse start (es ++ [.allocated table (.ok h)]) s'
  | released {es s s' body} (table h) : SlotUse start es s → s.slotTable? table = some body →
      s.PutsTable table (body.release h).1 s.world.locals.nextSeq s' →
      SlotUse start (es ++ [.released table h (body.release h).2]) s'

variable {start s s' : Session} {es : List SlotEvent} {e : SlotEvent} {table : Ref}
  {body : SlotTable} {limit seq : Nat}

theorem SlotUse.records (use : SlotUse start es s) (hstart : Records limit [] start) :
    Records limit es s := by
  induction use with
  | nil => exact hstart
  | elsewhere use htables hseq ih => exact ih.same htables hseq
  | made name limit' use ih => exact ih.made name limit'
  | @allocated es s s' body body' h table use hb hok hput ih =>
      rcases body.allocate_cases s.world.locals.nextSeq with herr | ⟨i, hi, hok'⟩
      · rw [herr] at hok
        cases hok
      · rw [hok'] at hok
        cases hok
        exact ih.gave hb hi hput
  | released table h use hb hput ih => exact ih.released hb hput

/-- The indices that the tables have grown to are those that they have given out. -/
def Grown (es : List SlotEvent) (s : Session) : Prop :=
  ∀ table body, s.slotTable? table = some body → ∀ i,
    i < body.seqs.length ↔ ∃ h, SlotEvent.Given table h es ∧ h.index = i

/-- One table grows, and no other does. -/
theorem Grown.snoc (hs : Grown es s) (hput : s.PutsTable table body seq s')
    (hself : ∀ i, i < body.seqs.length ↔
      ∃ h, SlotEvent.Given table h (es ++ [e]) ∧ h.index = i)
    (hother : ∀ other h, other ≠ table →
      (SlotEvent.Given other h (es ++ [e]) ↔ SlotEvent.Given other h es)) :
    Grown (es ++ [e]) s' := by
  intro other body' hbody' i
  rw [hput.slotTable?] at hbody'
  by_cases hne : other = table
  · rw [if_pos hne, Option.some.injEq] at hbody'
    rw [← hbody', hself, hne]
  · rw [if_neg hne] at hbody'
    simp only [hother other _ hne]
    exact hs other body' hbody' i

theorem SlotUse.grown (use : SlotUse start es s) (hstart : Grown [] start) : Grown es s := by
  induction use with
  | nil => exact hstart
  | elsewhere use htables hseq ih =>
      exact fun table body hbody => ih table body (htables table ▸ hbody)
  | @made es s name limit' use ih =>
      refine ih.snoc (putsTable_putTable s name _) (fun i => ?_) fun other h hne => ?_
      · refine iff_of_false (Nat.not_lt_zero i) ?_
        rintro ⟨h, hgiven, -⟩
        exact (SlotEvent.given_snoc_made ..|>.1 hgiven).2 rfl
      · exact (SlotEvent.given_snoc_made ..).trans (and_iff_left hne)
  | @allocated es s s' body body' h table use hb hok hput ih =>
      rcases body.allocate_cases s.world.locals.nextSeq with herr | ⟨i, hi, hok'⟩
      · rw [herr] at hok
        cases hok
      · rw [hok'] at hok
        cases hok
        refine ih.snoc hput (fun j => ?_) fun other h hne => ?_
        · rw [SlotTable.lt_length_mark_iff hi, ih table body hb j]
          simp only [SlotEvent.given_snoc_allocated, true_and, or_and_right, exists_or,
            exists_eq_left, eq_comm]
        · exact (SlotEvent.given_snoc_allocated ..).trans (or_iff_right fun h => hne h.1)
  | @released es s s' body table h use hb hput ih =>
      refine ih.snoc hput (fun j => ?_) fun other g hne => SlotEvent.given_snoc_released ..
      rw [SlotTable.length_release, ih table body hb j]
      simp only [SlotEvent.given_snoc_released]

theorem grown_alone (settings : Settings) (timestamp : String) (level : Option Log.Level) :
    Grown [] (alone settings timestamp level) := by
  intro table body hbody i
  have hnone : ¬∃ h, SlotEvent.Given table h [] ∧ h.index = i := by
    rintro ⟨h, ⟨before, after, heq, -⟩, -⟩
    simp at heq
  refine iff_of_false ?_ hnone
  cases table with
  | own =>
      have hworld : (alone settings timestamp level).world = World.fresh settings := by
        cases level <;> rfl
      rw [slotTable?, hworld, Option.some.injEq] at hbody
      rw [← hbody]
      exact Nat.not_lt_zero i
  | named name =>
      have htables : (alone settings timestamp level).slotTables = {} := by
        cases level <;> rfl
      rw [slotTable?, htables] at hbody
      cases hbody

/-- What a table answers about a handle of any value, and what a release of it takes from
the table, at a moment of a session. -/
structure Discerns (es : List SlotEvent) (table : Ref) (body : SlotTable)
    (h : SlotHandle) : Prop where
  isLive_iff : body.isLive h = true ↔
    SlotEvent.Out table h es ∨ (h.seq = 0 ∧ SlotEvent.Vacant table h.index es)
  answer : (body.release h).2 = body.isLive h
  inUse : SlotEvent.Out table h es → (body.release h).1.inUse + 1 = body.inUse
  unchanged : ¬SlotEvent.Out table h es → (body.release h).1 = body

theorem Records.discerns (hr : Records limit es s) (hs : Grown es s)
    (hb : s.slotTable? table = some body) (h : SlotHandle) : Discerns es table body h := by
  obtain ⟨l, hl, hd⟩ := hr.ledger hb
  have hheld : ∀ g, g ∈ body.held ↔ SlotEvent.Out table g es := fun g =>
    hd.held.mem_iff.trans (SlotLedger.mem_out hl)
  constructor
  case isLive_iff =>
    by_cases hzero : h.seq = 0
    · have hout : ¬SlotEvent.Out table h es := fun hout =>
        (SlotTable.mem_held.1 ((hheld h).2 hout)).2 hzero
      rw [SlotTable.isLive_iff_of_zero hzero, hs table body hb, or_iff_right hout,
        and_iff_right hzero]
      simp only [hheld]
      exact ⟨fun ⟨hgiven, hfree⟩ => ⟨hgiven, hfree⟩, fun hv => ⟨hv.given, hv.free⟩⟩
    · rw [SlotTable.isLive_iff hzero, hheld, or_iff_left fun h => hzero h.1]
  case answer => exact body.release_snd_eq h
  case inUse => exact fun hout => SlotTable.inUse_release ((hheld h).2 hout)
  case unchanged => exact fun hout => SlotTable.release_fst_of_not_mem (mt (hheld h).1 hout)

/-- What giving a slot back to the process does: the count of releases goes up with the
answer, and the slots in use go down with a handle that is out. -/
structure GivesBack (es : List SlotEvent) (w : World) (h : SlotHandle) : Prop where
  answer : (w.giveSlot h).2 = w.locals.table.isLive h
  counted_iff : (w.giveSlot h).1.counters.get .slotsReleased =
      w.counters.get .slotsReleased + 1 ↔
    SlotEvent.Out .own h es ∨ (h.seq = 0 ∧ SlotEvent.Vacant .own h.index es)
  uncounted : w.locals.table.isLive h = false → (w.giveSlot h).1.counters = w.counters
  inUse_iff : (w.giveSlot h).1.locals.table.inUse + 1 = w.locals.table.inUse ↔
    SlotEvent.Out .own h es
  unchanged : ¬SlotEvent.Out .own h es → (w.giveSlot h).1.locals.table = w.locals.table

theorem Discerns.givesBack {w : World} {h : SlotHandle}
    (hd : Discerns es .own w.locals.table h) : GivesBack es w h := by
  have htable : (w.giveSlot h).1.locals.table = (w.locals.table.release h).1 :=
    congrArg Locals.table (w.locals_giveSlot h)
  have hcounters : (w.giveSlot h).1.counters =
      if w.locals.table.isLive h then w.counters.increment .slotsReleased else w.counters := by
    rw [← hd.answer]
    unfold World.giveSlot Locals.release
    simp only
    split <;> rfl
  constructor
  case answer =>
    rw [← hd.answer]
    unfold World.giveSlot Locals.release
    rfl
  case counted_iff =>
    rw [← hd.isLive_iff, hcounters]
    split
    · next hlive =>
        rw [Counters.increment, Counters.get_add, if_pos rfl]
        exact iff_of_true rfl hlive
    · next hlive => exact iff_of_false (by simp) hlive
  case uncounted =>
    intro hlive
    rw [hcounters, hlive]
    rfl
  case inUse_iff =>
    rw [htable]
    refine ⟨fun hless => by_contra fun hout => ?_, hd.inUse⟩
    rw [hd.unchanged hout] at hless
    exact Nat.succ_ne_self _ hless
  case unchanged =>
    intro hout
    rw [htable, hd.unchanged hout]

/-- In every course of a session, each of its tables knows the handles that are out of it
from all others, except that it takes the number 0 at a vacant index for a live handle; and
a slot given back to the process by such a handle is counted while none less is in use. -/
theorem SlotUse.discerns_any {settings : Settings} {timestamp : String}
    {level : Option Log.Level} (use : (alone settings timestamp level).SlotUse es s)
    (h : SlotHandle) :
    (∀ table body, s.slotTable? table = some body → Discerns es table body h) ∧
      GivesBack es s.world h := by
  have hr := use.records (records_alone settings timestamp level)
  have hs := use.grown (grown_alone settings timestamp level)
  exact ⟨fun table body hb => hr.discerns hs hb h, (hr.discerns hs rfl h).givesBack⟩

/-- A slot is taken and given back, and then given back by the number 0: it was not out, no
slot less is in use, and yet the table answers that it was live and counts a release. -/
theorem SlotUse.discerns_any_zero :
    ∃ s, (alone {} "" none).SlotUse
        [.allocated .own (.ok ⟨0, 1⟩), .released .own ⟨0, 1⟩ true] s ∧
      Discerns [.allocated .own (.ok ⟨0, 1⟩), .released .own ⟨0, 1⟩ true] .own
        { seqs := [0], limit := 1088 } ⟨0, 0⟩ ∧
      GivesBack [.allocated .own (.ok ⟨0, 1⟩), .released .own ⟨0, 1⟩ true] s.world ⟨0, 0⟩ ∧
      s.world.locals.table.isLive ⟨0, 0⟩ = true ∧
      (s.world.giveSlot ⟨0, 0⟩).1.counters.get .slotsReleased =
        s.world.counters.get .slotsReleased + 1 ∧
      (s.world.giveSlot ⟨0, 0⟩).1.locals.table.inUse = s.world.locals.table.inUse := by
  have hstart : (alone {} "" none).slotTable? .own = some { limit := 1088 } := rfl
  have hall := (slotStep_allocation_ok hstart (h := ⟨0, 1⟩) rfl none).2
  have hfree := (slotStep_giveBack (hall.slotTable? .own)
    (rfl : Session.slot? _ (.written ⟨0, 1⟩) = some ⟨0, 1⟩)).2
  have huse := ((SlotUse.nil.allocated .own hstart rfl hall).released .own ⟨0, 1⟩
    (hall.slotTable? .own) hfree)
  obtain ⟨htables, hgives⟩ := huse.discerns_any ⟨0, 0⟩
  exact ⟨_, huse, htables .own _ rfl, hgives, rfl, rfl, rfl⟩

end Session

end Hosted

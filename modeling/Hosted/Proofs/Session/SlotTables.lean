import Hosted.Proofs.Session.ThreadSteps
import Hosted.Proofs.Slot.Held
import Mathlib.Data.List.Induction

/-!
# Slot tables over a session

A session has the slot table of its process and any number of tables with names, and
all of them number their allocations from one counter. A `SlotEvent` is a use of one of
them with what it answered, and `SlotRun` are the courses of a session that give rise
to a list of events, whatever else the session does in between. What is out of a table
can be read off the events alone: the handles it gave out that have not been released
to it since. At every moment the tables agree with that list.
-/

namespace Hosted

/-- A use of a slot table and what it answered. -/
inductive SlotEvent where
  | made (name : String) (limit : Nat)
  | allocated (table : Ref) (result : Except Fault SlotHandle)
  | released (table : Ref) (h : SlotHandle) (answer : Bool)

namespace SlotEvent

/-- The handle that was given out, if one was. -/
def handle? : SlotEvent → Option SlotHandle
  | allocated _ (.ok h) => some h
  | _ => none

/-- The handles given out so far, whatever table they are of. -/
def handles (es : List SlotEvent) : List SlotHandle := es.filterMap handle?

/-- The handle was allocated from the table, and it has not been released to it since.
Nor has its name been given to a new table. -/
def Out (table : Ref) (h : SlotHandle) (es : List SlotEvent) : Prop :=
  ∃ before after, es = before ++ allocated table (.ok h) :: after ∧
    (∀ answer, released table h answer ∉ after) ∧
    ∀ name limit, table = .named name → made name limit ∉ after

variable {es : List SlotEvent} {e : SlotEvent} {table : Ref} {h : SlotHandle}

/-- A list with `a` in it and `P` for all that follows, one element later. -/
theorem since_snoc {α : Type} {P : α → Prop} {l : List α} {a x : α} :
    (∃ before after, l ++ [x] = before ++ a :: after ∧ ∀ y ∈ after, P y) ↔
      x = a ∨ (∃ before after, l = before ++ a :: after ∧ ∀ y ∈ after, P y) ∧ P x := by
  constructor
  · rintro ⟨before, after, heq, hafter⟩
    rcases List.eq_nil_or_concat after with rfl | ⟨after', last, rfl⟩
    · exact Or.inl (List.append_inj_right' heq rfl |> List.cons.inj).1
    · have hsplit : l ++ [x] = (before ++ a :: after') ++ [last] := by simpa using heq
      obtain ⟨rfl, hlast⟩ := List.append_inj' hsplit rfl
      obtain rfl := (List.cons.inj hlast).1
      rw [List.concat_eq_append, List.forall_mem_append] at hafter
      exact Or.inr ⟨⟨before, after', rfl, hafter.1⟩, hafter.2 x List.mem_cons_self⟩
  · rintro (rfl | ⟨⟨before, after, rfl, hafter⟩, hx⟩)
    · exact ⟨l, [], rfl, by simp⟩
    · refine ⟨before, after ++ [x], by simp, List.forall_mem_append.2 ⟨hafter, ?_⟩⟩
      exact fun y hy => List.mem_singleton.1 hy ▸ hx

theorem out_iff_since : Out table h es ↔
    ∃ before after, es = before ++ allocated table (.ok h) :: after ∧ ∀ e ∈ after,
      (∀ answer, e ≠ released table h answer) ∧
        ∀ name limit, table = .named name → e ≠ made name limit := by
  refine exists_congr fun before => exists_congr fun after => and_congr_right fun _ => ?_
  constructor
  · rintro ⟨hreleased, hmade⟩ e he
    exact ⟨fun answer heq => hreleased answer (heq ▸ he),
      fun name limit htable heq => hmade name limit htable (heq ▸ he)⟩
  · exact fun hafter => ⟨fun answer he => (hafter _ he).1 answer rfl,
      fun name limit htable he => (hafter _ he).2 name limit htable rfl⟩

theorem out_snoc : Out table h (es ++ [e]) ↔ e = .allocated table (.ok h) ∨
    (Out table h es ∧ (∀ answer, e ≠ .released table h answer) ∧
      ∀ name limit, table = .named name → e ≠ .made name limit) := by
  rw [out_iff_since, out_iff_since, since_snoc]

theorem out_snoc_made (name : String) (limit : Nat) :
    Out table h (es ++ [made name limit]) ↔ Out table h es ∧ table ≠ .named name := by
  rw [out_snoc]
  constructor
  · rintro (heq | ⟨hout, -, hmade⟩)
    · cases heq
    · exact ⟨hout, fun htable => hmade name limit htable rfl⟩
  · rintro ⟨hout, htable⟩
    refine Or.inr ⟨hout, nofun, fun name' limit' htable' heq => ?_⟩
    cases heq
    exact htable htable'

theorem out_snoc_refused (other : Ref) (f : Fault) :
    Out table h (es ++ [allocated other (.error f)]) ↔ Out table h es := by
  simp [out_snoc]

theorem out_snoc_allocated (other : Ref) (g : SlotHandle) :
    Out table h (es ++ [allocated other (.ok g)]) ↔ (table = other ∧ h = g) ∨ Out table h es := by
  simp [out_snoc, eq_comm]

theorem out_snoc_released (other : Ref) (g : SlotHandle) (answer : Bool) :
    Out table h (es ++ [released other g answer]) ↔
      Out table h es ∧ ¬(table = other ∧ h = g) := by
  rw [out_snoc]
  constructor
  · rintro (heq | ⟨hout, hreleased, -⟩)
    · cases heq
    · refine ⟨hout, ?_⟩
      rintro ⟨rfl, rfl⟩
      exact hreleased answer rfl
  · rintro ⟨hout, hne⟩
    refine Or.inr ⟨hout, fun answer' heq => ?_, nofun⟩
    cases heq
    exact hne ⟨rfl, rfl⟩

theorem mem_handles : h ∈ handles es ↔ ∃ table, allocated table (.ok h) ∈ es := by
  simp only [handles, List.mem_filterMap]
  constructor
  · rintro ⟨e, he, hh⟩
    unfold handle? at hh
    split at hh
    · next table g =>
        obtain rfl := Option.some.inj hh
        exact ⟨table, he⟩
    · cases hh
  · rintro ⟨table, hmem⟩
    exact ⟨_, hmem, rfl⟩

theorem handles_snoc (es : List SlotEvent) (e : SlotEvent) :
    handles (es ++ [e]) = handles es ++ e.handle?.toList := by
  unfold handles
  rw [List.filterMap_append]
  cases he : e.handle? <;> simp [he]

end SlotEvent

/-- What is known of a slot table: its limit and the handles that are out. -/
structure SlotLedger where
  limit : Nat
  out : List SlotHandle := []

namespace SlotLedger

/-- The ledger of a table after one more event. What a release answered does not count. -/
def note (table : Ref) (l : Option SlotLedger) : SlotEvent → Option SlotLedger
  | .made name limit => if table = .named name then some { limit } else l
  | .allocated of (.ok h) => if table = of then l.map fun l => { l with out := h :: l.out } else l
  | .allocated _ (.error _) => l
  | .released of h _ =>
    if table = of then l.map fun l => { l with out := l.out.filter (· ≠ h) } else l

/-- The ledger of a table, where `limit` is the limit of the table of the process. -/
def ofEvents (limit : Nat) (table : Ref) (es : List SlotEvent) : Option SlotLedger :=
  es.foldl (note table) (if table = .own then some { limit } else none)

variable {es : List SlotEvent} {table : Ref} {h : SlotHandle} {l : SlotLedger} {limit : Nat}

theorem ofEvents_snoc (limit : Nat) (table : Ref) (es : List SlotEvent)
    (e : SlotEvent) :
    ofEvents limit table (es ++ [e]) = note table (ofEvents limit table es) e := by
  simp [ofEvents]

/-- The ledger lists what is out of the table. -/
theorem mem_out (hl : ofEvents limit table es = some l) :
    h ∈ l.out ↔ SlotEvent.Out table h es := by
  induction es using List.reverseRecOn generalizing l with
  | nil =>
      have hout : l.out = [] := by
        unfold ofEvents at hl
        rw [List.foldl_nil] at hl
        split at hl
        · obtain rfl := Option.some.inj hl
          rfl
        · cases hl
      simp [hout, SlotEvent.Out]
  | append_singleton es e ih =>
      rw [ofEvents_snoc] at hl
      cases e with
      | made name limit' =>
          rw [SlotEvent.out_snoc_made]
          by_cases htable : table = .named name
          · obtain rfl := Option.some.inj ((if_pos htable).symm.trans hl)
            simp [htable]
          · rw [ih ((if_neg htable).symm.trans hl), and_iff_left htable]
      | allocated other result =>
          cases result with
          | error f => rw [SlotEvent.out_snoc_refused, ih hl]
          | ok g =>
              rw [SlotEvent.out_snoc_allocated]
              by_cases htable : table = other
              · obtain ⟨l₀, hl₀, rfl⟩ := Option.map_eq_some_iff.1 ((if_pos htable).symm.trans hl)
                rw [List.mem_cons, ih hl₀, and_iff_right htable]
              · rw [ih ((if_neg htable).symm.trans hl)]
                simp [htable]
      | released other g answer =>
          rw [SlotEvent.out_snoc_released]
          by_cases htable : table = other
          · obtain ⟨l₀, hl₀, rfl⟩ := Option.map_eq_some_iff.1 ((if_pos htable).symm.trans hl)
            rw [List.mem_filter, ih hl₀, decide_eq_true_eq, and_iff_right htable]
          · rw [ih ((if_neg htable).symm.trans hl)]
            simp [htable]

end SlotLedger

/-- A table of this limit that holds what the ledger lists. -/
structure SlotLedger.Describes (body : SlotTable) (l : SlotLedger) : Prop where
  limit : body.limit = l.limit
  fits : body.Fits
  held : body.held.Perm l.out

namespace Session

/-- The table that is meant. -/
def slotTable? (s : Session) : Ref → Option SlotTable
  | .own => some s.world.locals.table
  | .named name => s.slotTables.find? name

/-- The step that allocates from a table. -/
def allocation (keep : Option String) : Ref → SlotStep
  | .own => .take keep
  | .named name => .allocateIn name keep

/-- The step that releases a handle to a table. -/
def giveBack (h : SlotRef) : Ref → SlotStep
  | .own => .give h
  | .named name => .releaseIn name h

/-- `s'` has `body` for one of the tables of `s`, and `seq` is its next number. -/
structure PutsTable (s : Session) (table : Ref) (body : SlotTable) (seq : Nat)
    (s' : Session) : Prop where
  slotTable? : ∀ other, s'.slotTable? other = if other = table then some body
    else s.slotTable? other
  nextSeq : s'.world.locals.nextSeq = seq

/-- The tables of `s'` are those of `s`, and so is its next number. -/
structure SameTables (s s' : Session) : Prop where
  slotTable? : ∀ table, s'.slotTable? table = s.slotTable? table
  nextSeq : s'.world.locals.nextSeq = s.world.locals.nextSeq

/-- The session goes from `start` to `s` through the events. A handle that is released
was given out by some table. Anything may happen that leaves the tables alone and
numbers nothing twice. -/
inductive SlotRun (start : Session) : List SlotEvent → Session → Prop where
  | nil : SlotRun start [] start
  | elsewhere {es s s'} : SlotRun start es s →
      (∀ table, s'.slotTable? table = s.slotTable? table) →
      s.world.locals.nextSeq ≤ s'.world.locals.nextSeq → SlotRun start es s'
  | made {es s} (name limit) : SlotRun start es s →
      SlotRun start (es ++ [.made name (limit.getD s.world.settings.slotLimit)])
        (s.slotStep (.makeTable name limit)).1
  | allocated {es s body} (table keep) : SlotRun start es s → s.slotTable? table = some body →
      SlotRun start
        (es ++ [.allocated table ((body.allocate s.world.locals.nextSeq).map Prod.fst)])
        (s.slotStep (allocation keep table)).1
  | released {es s body h} (table ref) : SlotRun start es s → s.slotTable? table = some body →
      h ∈ SlotEvent.handles es → s.slot? ref = some h →
      SlotRun start (es ++ [.released table h (body.release h).2])
        (s.slotStep (giveBack ref table)).1

variable {s s' start : Session} {es : List SlotEvent} {e : SlotEvent} {table other : Ref}
  {body body' : SlotTable} {h : SlotHandle} {l : SlotLedger} {limit seq : Nat}

/-! ## What a step does to the tables -/

theorem slotTable?_putTable (s : Session) (name : String) (body : SlotTable) (other : Ref) :
    (s.putTable name body).slotTable? other =
      if other = .named name then some body else s.slotTable? other := by
  cases other with
  | own => rfl
  | named other =>
      refine (Names.find?_put _ _ _ _).trans ?_
      simp only [Ref.named.injEq]
      rfl

theorem sameTables_answerSlot (s : Session) (keep : Option String) (h : SlotHandle) :
    s.SameTables (s.answerSlot keep h).1 := by
  cases keep with
  | none => exact ⟨fun _ => rfl, rfl⟩
  | some name => exact ⟨fun table => by cases table <;> rfl, rfl⟩

theorem PutsTable.trans_same (hp : s.PutsTable table body seq s') {s'' : Session}
    (hsame : s'.SameTables s'') : s.PutsTable table body seq s'' where
  slotTable? other := (hsame.slotTable? other).trans (hp.slotTable? other)
  nextSeq := hsame.nextSeq.trans hp.nextSeq

/-- A table that is put back as it was is not changed. -/
theorem PutsTable.same (hp : s.PutsTable table body s.world.locals.nextSeq s')
    (hb : s.slotTable? table = some body) : s.SameTables s' where
  slotTable? other := by
    rw [hp.slotTable?]
    split
    · next heq => rw [heq, hb]
    · rfl
  nextSeq := hp.nextSeq

theorem putsTable_putTable (s : Session) (name : String) (body : SlotTable) :
    s.PutsTable (.named name) body s.world.locals.nextSeq (s.putTable name body) :=
  ⟨s.slotTable?_putTable name body, rfl⟩

/-- A table that is exhausted refuses, and nothing changes. -/
theorem slotStep_allocation_error (hb : s.slotTable? table = some body) {f : Fault}
    (hf : body.allocate s.world.locals.nextSeq = .error f) (keep : Option String) :
    (s.slotStep (allocation keep table)).2 = .refused f ∧
      s.SameTables (s.slotStep (allocation keep table)).1 := by
  cases table with
  | own =>
      obtain rfl := Option.some.inj hb
      have hall : s.world.locals.allocate = (s.world.locals, .error f) := by
        rw [Locals.allocate, hf]
      have htake : s.world.takeSlot = (s.world.log (.slotRefused f), .error f) := by
        rw [World.takeSlot, hall]
      have hstep : s.slotStep (allocation keep .own) =
          ({ s with world := s.world.log (.slotRefused f) }, .refused f) := by
        simp only [allocation, slotStep, Session.perform, htake]
      rw [hstep]
      exact ⟨rfl, fun other => by cases other <;> rfl, rfl⟩
  | named name =>
      have hfind : s.slotTables.find? name = some body := hb
      have hstep : s.slotStep (allocation keep (.named name)) = (s, .refused f) := by
        simp only [allocation, slotStep, Session.withNamed, hfind, hf]
      rw [hstep]
      exact ⟨rfl, fun _ => rfl, rfl⟩

/-- An allocation uses up the next number. -/
theorem slotStep_allocation_ok (hb : s.slotTable? table = some body)
    (hok : body.allocate s.world.locals.nextSeq = .ok (h, body')) (keep : Option String) :
    (s.slotStep (allocation keep table)).2 = .reply (.slot (s.shownSlot h)) ∧
      s.PutsTable table body' (s.world.locals.nextSeq + 1)
        (s.slotStep (allocation keep table)).1 := by
  cases table with
  | own =>
      obtain rfl := Option.some.inj hb
      obtain ⟨w, htake, hlocals⟩ : ∃ w, s.world.takeSlot = (w, .ok h) ∧
          w.locals = { s.world.locals with
            table := body', nextSeq := s.world.locals.nextSeq + 1 } := by
        have hall : s.world.locals.allocate = ({ s.world.locals with
            table := body', nextSeq := s.world.locals.nextSeq + 1 }, .ok h) := by
          rw [Locals.allocate, hok]
        exact ⟨_, by rw [World.takeSlot, hall], rfl⟩
      have hstep : s.slotStep (allocation keep .own) =
          ({ s with world := w } : Session).answerSlot keep h := by
        simp only [allocation, slotStep, Session.perform, htake]
      rw [hstep]
      refine ⟨by cases keep <;> rfl, ?_⟩
      have hput : s.PutsTable .own body' (s.world.locals.nextSeq + 1) { s with world := w } := by
        refine ⟨fun other => ?_, by rw [hlocals]⟩
        cases other with
        | own => exact congrArg some (by rw [hlocals])
        | named name => rfl
      exact hput.trans_same (sameTables_answerSlot _ _ _)
  | named name =>
      have hfind : s.slotTables.find? name = some body := hb
      have hstep : s.slotStep (allocation keep (.named name)) =
          (s.useSeq.putTable name body').answerSlot keep h := by
        simp only [allocation, slotStep, Session.withNamed, hfind, hok]
      rw [hstep]
      refine ⟨by cases keep <;> rfl, ?_⟩
      have hput : s.PutsTable (.named name) body' (s.world.locals.nextSeq + 1)
          (s.useSeq.putTable name body') := by
        refine ⟨fun other => ?_, rfl⟩
        refine (slotTable?_putTable _ _ _ _).trans ?_
        cases other <;> rfl
      exact hput.trans_same (sameTables_answerSlot _ _ _)

theorem withSlot_of_slot? {ref : SlotRef} (hh : s.slot? ref = some h)
    (go : SlotHandle → Session × Outcome) : s.withSlot ref go = go h := by
  cases ref with
  | named name =>
      have hfind : s.slots.find? name = some h := hh
      simp only [withSlot, withNamed, hfind]
  | written g =>
      obtain rfl := Option.some.inj hh
      rfl

theorem slotStep_giveBack {ref : SlotRef} (hb : s.slotTable? table = some body)
    (hh : s.slot? ref = some h) :
    (s.slotStep (giveBack ref table)).2 = .reply (.truth (body.release h).2) ∧
      s.PutsTable table (body.release h).1 s.world.locals.nextSeq
        (s.slotStep (giveBack ref table)).1 := by
  cases table with
  | own =>
      obtain rfl := Option.some.inj hb
      have hstep : s.slotStep (giveBack ref .own) =
          ({ s with world := (s.world.giveSlot h).1 }, .reply (.truth (s.world.giveSlot h).2)) :=
        withSlot_of_slot? hh _
      have hlocals := s.world.locals_giveSlot h
      rw [hstep]
      refine ⟨rfl, fun other => ?_, (congrArg Locals.nextSeq hlocals).trans rfl⟩
      cases other with
      | own => exact congrArg (fun locals => some locals.table) hlocals
      | named name => rfl
  | named name =>
      have hfind : s.slotTables.find? name = some body := hb
      have hstep : s.slotStep (giveBack ref (.named name)) =
          (s.putTable name (body.release h).1, .reply (.truth (body.release h).2)) := by
        simp only [giveBack, slotStep, Session.withNamed, hfind]
        exact withSlot_of_slot? hh _
      rw [hstep]
      exact ⟨rfl, putsTable_putTable s name _⟩

/-! ## What the tables hold -/

/-- The tables hold what is out of them, and the numbers given out so far rise up to the
next one. -/
structure Records (limit : Nat) (es : List SlotEvent) (s : Session) : Prop where
  next_pos : 0 < s.world.locals.nextSeq
  seq_pos : ∀ h ∈ SlotEvent.handles es, h.seq ≠ 0
  seq_lt : ∀ h ∈ SlotEvent.handles es, h.seq < s.world.locals.nextSeq
  increasing : (SlotEvent.handles es).Pairwise (·.seq < ·.seq)
  one_table : ∀ {table other h}, .allocated table (.ok h) ∈ es →
    .allocated other (.ok h) ∈ es → table = other
  tables : ∀ table,
    Option.Rel SlotLedger.Describes (s.slotTable? table) (SlotLedger.ofEvents limit table es)

namespace Records

variable (hr : Records limit es s)

include hr

theorem ledger (hb : s.slotTable? table = some body) :
    ∃ l, SlotLedger.ofEvents limit table es = some l ∧ SlotLedger.Describes body l := by
  have hrel := hr.tables table
  rw [hb] at hrel
  cases hl : SlotLedger.ofEvents limit table es with
  | none =>
      rw [hl] at hrel
      cases hrel
  | some l =>
      rw [hl] at hrel
      cases hrel with
      | some hd => exact ⟨l, rfl, hd⟩

theorem same (htables : ∀ table, s'.slotTable? table = s.slotTable? table)
    (hseq : s.world.locals.nextSeq ≤ s'.world.locals.nextSeq) : Records limit es s' :=
  { hr with
    next_pos := Nat.lt_of_lt_of_le hr.next_pos hseq
    seq_lt := fun h hh => Nat.lt_of_lt_of_le (hr.seq_lt h hh) hseq
    tables := fun table => htables table ▸ hr.tables table }

/-- One table and its ledger change together, and all others stay as they are. -/
theorem tables_snoc (hp : s.PutsTable table body seq s')
    (hself : Option.Rel SlotLedger.Describes (some body)
      (SlotLedger.note table (SlotLedger.ofEvents limit table es) e))
    (hother : ∀ other l, other ≠ table → SlotLedger.note other l e = l) (other : Ref) :
    Option.Rel SlotLedger.Describes (s'.slotTable? other)
      (SlotLedger.ofEvents limit other (es ++ [e])) := by
  rw [SlotLedger.ofEvents_snoc, hp.slotTable?]
  by_cases hne : other = table
  · rw [if_pos hne, hne]
    exact hself
  · rw [if_neg hne, hother other _ hne]
    exact hr.tables other

/-- An event that gives out no handle. -/
theorem snoc_of_handle?_none (he : e.handle? = none)
    (hseq : s'.world.locals.nextSeq = s.world.locals.nextSeq)
    (htables : ∀ table, Option.Rel SlotLedger.Describes (s'.slotTable? table)
      (SlotLedger.ofEvents limit table (es ++ [e]))) : Records limit (es ++ [e]) s' := by
  have hhandles : SlotEvent.handles (es ++ [e]) = SlotEvent.handles es := by
    rw [SlotEvent.handles_snoc, he]
    exact List.append_nil _
  have hmem : ∀ {table h}, .allocated table (.ok h) ∈ es ++ [e] →
      .allocated table (.ok h) ∈ es := by
    intro table h hmem
    rcases List.mem_append.1 hmem with hmem | hmem
    · exact hmem
    · rw [← List.mem_singleton.1 hmem] at he
      cases he
  constructor
  case next_pos => exact hseq ▸ hr.next_pos
  case seq_pos => exact hhandles ▸ hr.seq_pos
  case seq_lt => exact hhandles ▸ hseq ▸ hr.seq_lt
  case increasing => exact hhandles ▸ hr.increasing
  case one_table => exact fun h h' => hr.one_table (hmem h) (hmem h')
  case tables => exact htables

theorem made (name : String) (limit' : Option Nat) :
    Records limit (es ++ [.made name (limit'.getD s.world.settings.slotLimit)])
      (s.slotStep (.makeTable name limit')).1 := by
  refine hr.snoc_of_handle?_none rfl rfl ?_
  refine hr.tables_snoc (putsTable_putTable s name _) ?_ fun other l hne => if_neg hne
  rw [SlotLedger.note, if_pos rfl]
  exact .some ⟨rfl, Nat.zero_le _, .nil⟩

/-- A handle is released, whether or not it was ever given out. -/
theorem released (hb : s.slotTable? table = some body)
    (hput : s.PutsTable table (body.release h).1 s.world.locals.nextSeq s') :
    Records limit (es ++ [.released table h (body.release h).2]) s' := by
  obtain ⟨l, hl, hd⟩ := hr.ledger hb
  refine hr.snoc_of_handle?_none rfl hput.nextSeq ?_
  refine hr.tables_snoc hput ?_ fun other l hne => if_neg hne
  rw [SlotLedger.note, if_pos rfl, hl]
  refine .some ⟨(body.limit_release h).trans hd.limit, hd.fits.release h, ?_⟩
  exact (body.held_release h).trans (hd.held.filter _)

/-- A handle is given out under the next number. -/
theorem gave {i : Nat} (hb : s.slotTable? table = some body) (hi : body.freeIndex? = some i)
    (hput : s.PutsTable table (body.mark i s.world.locals.nextSeq)
      (s.world.locals.nextSeq + 1) s') :
    Records limit (es ++ [.allocated table (.ok ⟨i, s.world.locals.nextSeq⟩)]) s' := by
  obtain ⟨l, hl, hd⟩ := hr.ledger hb
  have hhandles : SlotEvent.handles (es ++ [.allocated table (.ok ⟨i, s.world.locals.nextSeq⟩)])
      = SlotEvent.handles es ++ [⟨i, s.world.locals.nextSeq⟩] := SlotEvent.handles_snoc _ _
  constructor
  case next_pos => exact hput.nextSeq ▸ Nat.succ_pos _
  case seq_pos =>
    intro h hh
    rcases List.mem_append.1 (hhandles ▸ hh) with hh | hh
    · exact hr.seq_pos h hh
    · rw [List.mem_singleton.1 hh]
      exact Nat.ne_of_gt hr.next_pos
  case seq_lt =>
    intro h hh
    rw [hput.nextSeq]
    rcases List.mem_append.1 (hhandles ▸ hh) with hh | hh
    · exact Nat.lt_succ_of_lt (hr.seq_lt h hh)
    · rw [List.mem_singleton.1 hh]
      exact Nat.lt_succ_self _
  case increasing =>
    refine hhandles ▸ List.pairwise_append.2 ⟨hr.increasing, List.pairwise_singleton _ _, ?_⟩
    intro h hh g hg
    rw [List.mem_singleton.1 hg]
    exact hr.seq_lt h hh
  case one_table =>
    have hnew : ∀ {other}, .allocated other (.ok ⟨i, s.world.locals.nextSeq⟩) ∉ es := by
      intro other hmem
      have hlt := hr.seq_lt _ (SlotEvent.mem_handles.2 ⟨other, hmem⟩)
      exact Nat.lt_irrefl _ hlt
    intro table₁ table₂ h h₁ h₂
    rcases List.mem_append.1 h₁ with h₁ | h₁ <;> rcases List.mem_append.1 h₂ with h₂ | h₂
    · exact hr.one_table h₁ h₂
    · cases List.mem_singleton.1 h₂
      exact absurd h₁ hnew
    · cases List.mem_singleton.1 h₁
      exact absurd h₂ hnew
    · cases List.mem_singleton.1 h₁
      cases List.mem_singleton.1 h₂
      rfl
  case tables =>
    refine hr.tables_snoc hput ?_ fun other l hne => if_neg hne
    rw [SlotLedger.note, if_pos rfl, hl]
    refine .some ⟨(body.limit_mark _ _).trans hd.limit, hd.fits.mark hi _, ?_⟩
    exact (hd.fits.held_mark hi (Nat.ne_of_gt hr.next_pos)).trans (hd.held.cons _)

theorem allocated (hb : s.slotTable? table = some body) (keep : Option String) :
    Records limit
      (es ++ [.allocated table ((body.allocate s.world.locals.nextSeq).map Prod.fst)])
      (s.slotStep (allocation keep table)).1 := by
  rcases body.allocate_cases s.world.locals.nextSeq with herr | ⟨i, hi, hok⟩
  · obtain ⟨-, hsame⟩ := slotStep_allocation_error hb herr keep
    rw [herr]
    refine hr.snoc_of_handle?_none rfl hsame.nextSeq fun other => ?_
    rw [SlotLedger.ofEvents_snoc, hsame.slotTable?]
    exact hr.tables other
  · obtain ⟨-, hput⟩ := slotStep_allocation_ok hb hok keep
    rw [hok]
    exact hr.gave hb hi hput

end Records

theorem records_alone (settings : Settings) (timestamp : String) (level : Option Log.Level) :
    Records settings.slotLimit [] (alone settings timestamp level) := by
  have hworld : (alone settings timestamp level).world = World.fresh settings := by
    cases level <;> rfl
  have htables : (alone settings timestamp level).slotTables = {} := by
    cases level <;> rfl
  constructor
  case next_pos => exact hworld ▸ Nat.one_pos
  case seq_pos => exact fun h hh => nomatch hh
  case seq_lt => exact fun h hh => nomatch hh
  case increasing => exact .nil
  case one_table => exact fun hmem => nomatch hmem
  case tables =>
    intro table
    cases table with
    | own =>
        rw [slotTable?, hworld]
        exact .some ⟨rfl, Nat.zero_le _, .nil⟩
    | named name =>
        rw [slotTable?, htables]
        exact .none

theorem SlotRun.records (run : SlotRun start es s) (hstart : Records limit [] start) :
    Records limit es s := by
  induction run with
  | nil => exact hstart
  | elsewhere run htables hseq ih => exact ih.same htables hseq
  | made name limit' run ih => exact ih.made name limit'
  | allocated table keep run hb ih => exact ih.allocated hb keep
  | released table ref run hb _ hslot ih => exact ih.released hb (slotStep_giveBack hb hslot).2

/-- What holds of a slot table at a moment of a session, by the events before. -/
structure Settled (es : List SlotEvent) (s : Session) (table : Ref) (body : SlotTable)
    (l : SlotLedger) : Prop where
  limit : body.limit = l.limit
  nodup : l.out.Nodup
  mem_out : ∀ h, h ∈ l.out ↔ SlotEvent.Out table h es
  inUse : body.inUse = l.out.length
  /-- There is a slot to allocate while fewer are out than the limit allows. -/
  allocates_iff : (∃ h body', body.allocate s.world.locals.nextSeq = .ok (h, body')) ↔
    l.out.length < l.limit
  /-- It is the lowest that is not out, and its number is above all before. -/
  allocates : ∀ h body', body.allocate s.world.locals.nextSeq = .ok (h, body') →
    h.index < l.limit ∧ (∀ g ∈ l.out, g.index ≠ h.index) ∧
      (∀ i < h.index, ∃ g ∈ l.out, g.index = i) ∧
      h.seq ≠ 0 ∧ ∀ g ∈ SlotEvent.handles es, g.seq < h.seq
  /-- A table that has none left refuses, and nothing changes. -/
  refuses : ∀ f, body.allocate s.world.locals.nextSeq = .error f →
    f = .slotsExhausted l.limit ∧ ∀ keep,
      (s.slotStep (allocation keep table)).2 = .refused f ∧
        s.SameTables (s.slotStep (allocation keep table)).1
  isLive_iff : ∀ h ∈ SlotEvent.handles es, body.isLive h = true ↔ SlotEvent.Out table h es
  release_iff : ∀ h ∈ SlotEvent.handles es,
    (body.release h).2 = true ↔ SlotEvent.Out table h es
  /-- A handle that is not out changes nothing when it is released. -/
  stale : ∀ h ∈ SlotEvent.handles es, ¬SlotEvent.Out table h es →
    body.release h = (body, false) ∧ ∀ ref, s.slot? ref = some h →
      (s.slotStep (giveBack ref table)).2 = .reply (.truth false) ∧
        s.SameTables (s.slotStep (giveBack ref table)).1

theorem Records.settles (hr : Records limit es s) (hb : s.slotTable? table = some body)
    (hl : SlotLedger.ofEvents limit table es = some l) (hd : SlotLedger.Describes body l) :
    Settled es s table body l := by
  have hheld : ∀ h, h ∈ body.held ↔ SlotEvent.Out table h es := fun h =>
    hd.held.mem_iff.trans (SlotLedger.mem_out hl)
  have hlength : body.held.length = l.out.length := hd.held.length_eq
  have hstale : ∀ h ∈ SlotEvent.handles es, ¬SlotEvent.Out table h es →
      body.release h = (body, false) := fun h hh hout =>
    SlotTable.release_of_not_mem (hr.seq_pos h hh) fun hmem => hout ((hheld h).1 hmem)
  constructor
  case limit => exact hd.limit
  case nodup => exact hd.held.nodup_iff.1 body.nodup_held
  case mem_out => exact fun h => SlotLedger.mem_out hl
  case inUse => exact body.inUse_eq_length.trans hlength
  case allocates_iff =>
    rw [← hd.limit, ← hlength, ← hd.fits.isSome_freeIndex?]
    exact body.exists_allocate_iff _
  case allocates =>
    intro h body' hok
    rcases body.allocate_cases s.world.locals.nextSeq with herr | ⟨i, hi, hok'⟩
    · rw [herr] at hok
      cases hok
    · rw [hok'] at hok
      cases hok
      obtain ⟨hlimit, hfree, hbelow⟩ := hd.fits.freeIndex?_least hi
      refine ⟨hd.limit ▸ hlimit, ?_, ?_, Nat.ne_of_gt hr.next_pos, hr.seq_lt⟩
      · exact fun g hg => hfree g (hd.held.mem_iff.2 hg)
      · intro j hj
        obtain ⟨g, hg, hindex⟩ := hbelow j hj
        exact ⟨g, hd.held.mem_iff.1 hg, hindex⟩
  case refuses =>
    intro f hf
    refine ⟨?_, slotStep_allocation_error hb hf⟩
    rcases body.allocate_cases s.world.locals.nextSeq with herr | ⟨i, hi, hok⟩
    · rw [herr] at hf
      cases hf
      rw [hd.limit]
    · rw [hok] at hf
      cases hf
  case isLive_iff =>
    exact fun h hh => (SlotTable.isLive_iff (hr.seq_pos h hh)).trans (hheld h)
  case release_iff =>
    exact fun h hh => (SlotTable.release_snd (hr.seq_pos h hh)).trans (hheld h)
  case stale =>
    intro h hh hout
    have hrelease := hstale h hh hout
    refine ⟨hrelease, fun ref hslot => ?_⟩
    obtain ⟨hanswer, hput⟩ := slotStep_giveBack hb hslot
    rw [hrelease] at hanswer hput
    exact ⟨hanswer, hput.same hb⟩

/-- In every course of a session, the numbers given out rise over all tables, no handle
is of two tables, and each table agrees with what is out of it by the events. -/
theorem SlotRun.settled {settings : Settings} {timestamp : String} {level : Option Log.Level}
    (run : (alone settings timestamp level).SlotRun es s) :
    (SlotEvent.handles es).Pairwise (·.seq < ·.seq) ∧
      (∀ table other h, .allocated table (.ok h) ∈ es → .allocated other (.ok h) ∈ es →
        table = other) ∧
      ∀ table, Option.Rel (Settled es s table) (s.slotTable? table)
        (SlotLedger.ofEvents settings.slotLimit table es) := by
  have hr := run.records (records_alone settings timestamp level)
  refine ⟨hr.increasing, fun table other h => hr.one_table, fun table => ?_⟩
  have hrel := hr.tables table
  cases hb : s.slotTable? table with
  | none =>
      rw [hb] at hrel
      generalize SlotLedger.ofEvents settings.slotLimit table es = l at hrel ⊢
      cases hrel
      exact .none
  | some body =>
      obtain ⟨l, hl, hd⟩ := hr.ledger hb
      rw [hl]
      exact .some (hr.settles hb hl hd)

/-- A table of one slot refuses while it is held, ignores the handle of another table,
and ignores the handle of its first allocation once the slot is held by its second. -/
theorem SlotRun.settled_recycled :
    ∃ s, Settled
      [.made "a" 1, .allocated (.named "a") (.ok ⟨0, 1⟩), .allocated .own (.ok ⟨0, 2⟩),
        .allocated (.named "a") (.error (.slotsExhausted 1)),
        .released (.named "a") ⟨0, 2⟩ false, .released (.named "a") ⟨0, 1⟩ true,
        .allocated (.named "a") (.ok ⟨0, 3⟩), .released (.named "a") ⟨0, 1⟩ false]
      s (.named "a") { seqs := [3], limit := 1 } { limit := 1, out := [⟨0, 3⟩] } := by
  have hrun : (alone {} "" none).SlotRun _ _ :=
    .released (.named "a") (.written ⟨0, 1⟩)
      (.allocated (.named "a") none
        (.released (.named "a") (.written ⟨0, 1⟩)
          (.released (.named "a") (.written ⟨0, 2⟩)
            (.allocated (.named "a") none
              (.allocated .own none
                (.allocated (.named "a") none (.made "a" (some 1) .nil) rfl) rfl) rfl)
            rfl (by decide) rfl)
          rfl (by decide) rfl)
        rfl)
      rfl (by decide) rfl
  obtain ⟨-, -, htables⟩ := hrun.settled
  have htable : Option.Rel _ (some (SlotTable.mk [3] 1))
      (some (SlotLedger.mk 1 [⟨0, 3⟩])) := htables (.named "a")
  cases htable with
  | some hsettled => exact ⟨_, hsettled⟩

end Session

end Hosted

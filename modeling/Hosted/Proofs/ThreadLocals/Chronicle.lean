import Hosted.Proofs.Slot.Reclaim
import Hosted.World.State
import Mathlib.Data.List.Nodup

/-!
# What happened to the values of thread locals

A `ValueEvent` is what happened to a value: a value is known by its cell, since no cell
is filled twice. `ValuePath` are the sequences of small steps on thread locals that give
rise to a list of events; any handle may be given back in between, that of a live thread
local included, so that two live thread locals may come to have one index. `Chronicle`
is what the events say of the thread locals where a path ends, whatever was given back.
-/

namespace Hosted

/-- Something that happened to the values of thread locals. -/
inductive ValueEvent where
  /-- A thread bound the value in a cell through a thread local with this slot index. -/
  | bound (t : ThreadId) (index : Nat) (id : LocalId) (c : CellId)
  /-- A value was not bound, and was freed at once. -/
  | refused (v : Payload)
  | freed (c : CellId) (v : Payload)
  | dropped (id : LocalId)
  | ended (t : ThreadId)

namespace ValueEvent

def boundCell? : ValueEvent → Option CellId
  | bound _ _ _ c => some c
  | _ => none

def freedCell? : ValueEvent → Option CellId
  | freed c _ => some c
  | _ => none

/-- The cells of the values that were bound, in order. -/
def boundCells (es : List ValueEvent) : List CellId := es.filterMap boundCell?

/-- The cells of the values that were freed, in order. -/
def freedCells (es : List ValueEvent) : List CellId := es.filterMap freedCell?

/-- Values are freed one after the other. -/
def freeing (values : List (CellId × Payload)) : List ValueEvent :=
  values.map fun p => freed p.1 p.2

end ValueEvent

open ValueEvent Locals

/-- Thread locals go from `start` to `s` through the events, one small step at a time. -/
inductive ValuePath (start : Locals Payload) : List ValueEvent → Locals Payload → Prop where
  | nil : ValuePath start [] start
  | touch {es s} (t) : ValuePath start es s → ValuePath start es (s.touch t)
  | modifyAll {es s} (id f) : ValuePath start es s → ValuePath start es (s.modifyAll id f)
  | release {es s} (h) : ValuePath start es s → ValuePath start es (s.release h).1
  | allocate {es s s' h} : ValuePath start es s → s.allocate = (s', .ok h) → ValuePath start es s'
  | create {es s h} : ValuePath start es s → s.Reserved h → ValuePath start es (s.create h).1
  | bind {es s s' t id l v} : ValuePath start es s → s.local? id = some l →
      s.Binds t id l v s' →
      ValuePath start (es ++ [.bound t l.handle.index id s.cells.length]) s'
  | refuse {es s} (v) : ValuePath start es s → ValuePath start (es ++ [.refused v]) s
  | detach {es s s' t id l} : ValuePath start es s → s.local? id = some l →
      s.Detaches t id l s' →
      ValuePath start (es ++ freeing (s.contentsOf (s.cellsOf id)) ++ [.dropped id]) s'
  /-- A thread local without a value goes, and no value with it. -/
  | detachEmpty {es s s' t id l} : ValuePath start es s → s.local? id = some l → l.cells = [] →
      s.Detaches t id l s' → ValuePath start es s'
  | endThread {es s} (t) : ValuePath start es s →
      ValuePath start (es ++ freeing (s.leftBehind t) ++ [.ended t]) (s.endThread t).1

namespace ValueEvent

variable {es es' : List ValueEvent} {e : ValueEvent}

theorem mem_boundCells {c : CellId} :
    c ∈ boundCells es ↔ ∃ t i id, bound t i id c ∈ es := by
  simp only [boundCells, List.mem_filterMap]
  constructor
  · rintro ⟨e, he, hc⟩
    unfold boundCell? at hc
    split at hc
    · next t i id c' =>
        obtain rfl := Option.some.inj hc
        exact ⟨t, i, id, he⟩
    · cases hc
  · rintro ⟨t, i, id, he⟩
    exact ⟨_, he, rfl⟩

theorem boundCells_append (es es' : List ValueEvent) :
    boundCells (es ++ es') = boundCells es ++ boundCells es' := List.filterMap_append

theorem freedCells_append (es es' : List ValueEvent) :
    freedCells (es ++ es') = freedCells es ++ freedCells es' := List.filterMap_append

@[simp] theorem boundCells_freeing (values : List (CellId × Payload)) :
    boundCells (freeing values) = [] := by
  induction values with
  | nil => rfl
  | cons p values ih => exact ih

@[simp] theorem freedCells_freeing (values : List (CellId × Payload)) :
    freedCells (freeing values) = values.map (·.1) := by
  induction values with
  | nil => rfl
  | cons p values ih => exact congrArg (p.1 :: ·) ih

/-- Where nothing new is bound, what was bound is known from before. -/
theorem mem_append_of_boundCells {t : ThreadId} {i : Nat} {id : LocalId} {c : CellId}
    (hnew : boundCells es' = []) :
    bound t i id c ∈ es ++ es' ↔ bound t i id c ∈ es := by
  constructor
  · intro hmem
    rcases List.mem_append.1 hmem with hmem | hmem
    · exact hmem
    · have hnil := mem_boundCells.2 ⟨t, i, id, hmem⟩
      rw [hnew] at hnil
      cases hnil
  · exact fun hmem => List.mem_append_left _ hmem

/-- Where cells are bound once each, a cell tells by whom and through what. -/
theorem bound_inj (hnd : (boundCells es).Nodup) {t t' : ThreadId} {i i' : Nat}
    {id id' : LocalId} {c : CellId} (h : bound t i id c ∈ es) (h' : bound t' i' id' c ∈ es) :
    t = t' ∧ i = i' ∧ id = id' := by
  induction es with
  | nil => cases h
  | cons e es ih =>
      have htail : (boundCells es).Nodup :=
        hnd.sublist ((List.sublist_cons_self e es).filterMap boundCell?)
      have hhead : ∀ {t i id t' i' id'}, e = bound t i id c → bound t' i' id' c ∉ es := by
        rintro t i id t' i' id' rfl hmem
        exact (List.nodup_cons.1 hnd).1 (mem_boundCells.2 ⟨t', i', id', hmem⟩)
      rcases List.mem_cons.1 h with h | h
      · rcases List.mem_cons.1 h' with h' | h'
        · cases h.trans h'.symm
          exact ⟨rfl, rfl, rfl⟩
        · exact absurd h' (hhead h.symm)
      · rcases List.mem_cons.1 h' with h' | h'
        · exact absurd h (hhead h'.symm)
        · exact ih htail h h'

end ValueEvent

/-! ## What the events say of the thread locals -/

/-- The thread locals agree with what happened to their values. -/
structure Chronicle (es : List ValueEvent) (s : Locals Payload) : Prop extends s.Sound where
  bound_lt : ∀ {c}, c ∈ boundCells es → c < s.cells.length
  bound_nodup : (boundCells es).Nodup
  freed_nodup : (freedCells es).Nodup
  freed_iff : ∀ {c}, c ∈ freedCells es ↔ c ∈ boundCells es ∧ s.cell? c = none
  id_lt : ∀ {t i id c}, .bound t i id c ∈ es → id < s.locals.length
  binding_bound : ∀ {t i b}, (s.thread t).at? i = some b → .bound t i b.owner b.cell ∈ es
  cell_bound : ∀ {id l c}, s.local? id = some l → c ∈ l.cells →
    ∃ t, .bound t l.handle.index id c ∈ es
  dropped_gone : ∀ {id}, .dropped id ∈ es → s.local? id = none ∧ id < s.locals.length

/-- `s'` is `s` without the values in the cells `cs`: nothing new is bound, though
thread locals without a value may have been made. -/
structure Locals.Loses (s : Locals Payload) (cs : List CellId) (s' : Locals Payload) : Prop where
  at?_some : ∀ {t i b}, (s'.thread t).at? i = some b → (s.thread t).at? i = some b
  cell_mem : ∀ {id l' c}, s'.local? id = some l' → c ∈ l'.cells →
    ∃ l, s.local? id = some l ∧ l'.handle = l.handle ∧ c ∈ l.cells
  local?_none : ∀ {id}, id < s.locals.length → s.local? id = none → s'.local? id = none
  locals_length : s.locals.length ≤ s'.locals.length
  cells_length : s'.cells.length = s.cells.length
  cell?_none : ∀ {c}, s'.cell? c = none ↔ c ∈ cs ∨ s.cell? c = none

namespace Locals.Loses

variable {s s' : Locals Payload} {t : ThreadId} {id : LocalId} {l : Local}

theorem of_eq (hat : ∀ t i, (s'.thread t).at? i = (s.thread t).at? i)
    (hlocal : ∀ id, s'.local? id = s.local? id)
    (hcell : ∀ c, (s'.cell? c).isSome = (s.cell? c).isSome)
    (hlocals : s'.locals.length = s.locals.length)
    (hcells : s'.cells.length = s.cells.length) : s.Loses [] s' where
  at?_some hb := (hat _ _).symm.trans hb
  cell_mem {id l' _} hl' hmem := ⟨l', (hlocal id).symm.trans hl', rfl, hmem⟩
  local?_none _ hnone := (hlocal _).trans hnone
  locals_length := Nat.le_of_eq hlocals.symm
  cells_length := hcells
  cell?_none {c} := by
    rw [← Option.isNone_iff_eq_none, ← Option.isNone_iff_eq_none, ← Option.not_isSome,
      ← Option.not_isSome, hcell]
    simp

theorem refl (s : Locals Payload) : s.Loses [] s :=
  of_eq (fun _ _ => rfl) (fun _ => rfl) (fun _ => rfl) rfl rfl

theorem of_detaches (hd : s.Detaches t id l s') :
    s.Loses l.cells s' where
  at?_some := hd.at?_some
  cell_mem {_ l' _} hl' hmem := ⟨l', (hd.local?_some hl').2, rfl, hmem⟩
  local?_none {id'} _ hnone := by
    rw [hd.local?, hnone]
    exact ite_self none
  locals_length := Nat.le_of_eq hd.locals_length.symm
  cells_length := hd.cells_length
  cell?_none {c} := by
    rw [hd.cell?]
    by_cases hmem : c ∈ l.cells <;> simp [hmem]

theorem of_ends {cs : List CellId} (he : s.Ends t cs s') : s.Loses cs s' where
  at?_some hb := (he.at?_some hb).2
  cell_mem hl' hmem := by
    obtain ⟨l, hl, hhandle, -, hmem'⟩ := he.reclaims.local_of_some hl'
    exact ⟨l, hl, hhandle, ((hmem' _).1 hmem).1⟩
  local?_none _ hnone := he.reclaims.local_none hnone
  locals_length := Nat.le_of_eq he.reclaims.locals_length.symm
  cells_length := he.reclaims.cells_length
  cell?_none {c} := by
    have hcell : (s.setThread t .ended).cell? c = s.cell? c := rfl
    rw [he.reclaims.cell?, hcell]
    by_cases hmem : c ∈ cs <;> simp [hmem]

/-- Only what is filled is lost. -/
theorem filled {cs : List CellId} (h : s.Loses cs s') :
    s.Loses (cs.filter fun c => (s.cell? c).isSome) s' :=
  { h with
    cell?_none := by
      intro c
      rw [h.cell?_none, List.mem_filter]
      cases hcell : s.cell? c <;> simp }

end Locals.Loses

namespace Chronicle

variable {es new : List ValueEvent} {s s' : Locals Payload} {t : ThreadId} {id : LocalId}
  {l : Local} {c : CellId} {v : Payload} {h : SlotHandle}

/-- What is in a cell has been bound and not been freed. -/
theorem filled_iff (hc : Chronicle es s) :
    (s.cell? c).isSome ↔ c ∈ boundCells es ∧ c ∉ freedCells es := by
  rw [hc.freed_iff, Option.isSome_iff_ne_none]
  constructor
  · intro hsome
    obtain ⟨id, l, hl, hmem⟩ := hc.owned (Option.isSome_iff_ne_none.2 hsome)
    obtain ⟨t, hbound⟩ := hc.cell_bound hl hmem
    exact ⟨mem_boundCells.2 ⟨t, _, id, hbound⟩, fun hfreed => hsome hfreed.2⟩
  · rintro ⟨hbound, hfreed⟩ hnone
    exact hfreed ⟨hbound, hnone⟩

/-- Values are freed that were there, and none is bound. -/
theorem loses (hc : Chronicle es s) (new : List ValueEvent) (hs' : s'.Sound)
    (hloses : s.Loses (freedCells new) s') (hbound : boundCells new = [])
    (hnd : (freedCells new).Nodup)
    (hfilled : ∀ c ∈ freedCells new, (s.cell? c).isSome)
    (hdropped : ∀ id, .dropped id ∈ new → s'.local? id = none ∧ id < s'.locals.length) :
    Chronicle (es ++ new) s' := by
  have hcells : boundCells (es ++ new) = boundCells es := by
    rw [boundCells_append, hbound, List.append_nil]
  have hold : ∀ {e}, e ∈ es → e ∈ es ++ new := fun he => List.mem_append_left new he
  constructor
  case toSound => exact hs'
  case bound_lt =>
    intro c hmem
    rw [hloses.cells_length]
    exact hc.bound_lt (hcells ▸ hmem)
  case bound_nodup => exact hcells ▸ hc.bound_nodup
  case freed_nodup =>
    rw [freedCells_append]
    refine List.nodup_append.2 ⟨hc.freed_nodup, hnd, ?_⟩
    rintro c hfreed _ hnew rfl
    exact (hc.filled_iff.1 (hfilled c hnew)).2 hfreed
  case freed_iff =>
    intro c
    rw [freedCells_append, List.mem_append, hcells, hloses.cell?_none, hc.freed_iff]
    constructor
    · rintro (⟨hb, hnone⟩ | hnew)
      · exact ⟨hb, Or.inr hnone⟩
      · exact ⟨(hc.filled_iff.1 (hfilled c hnew)).1, Or.inl hnew⟩
    · rintro ⟨hb, hnew | hnone⟩
      · exact Or.inr hnew
      · exact Or.inl ⟨hb, hnone⟩
  case id_lt => exact fun hb =>
    Nat.lt_of_lt_of_le (hc.id_lt ((mem_append_of_boundCells hbound).1 hb)) hloses.locals_length
  case binding_bound => exact fun hb => hold (hc.binding_bound (hloses.at?_some hb))
  case cell_bound =>
    intro id l' c hl' hcell
    obtain ⟨l, hl, hhandle, hcell⟩ := hloses.cell_mem hl' hcell
    obtain ⟨t, hb⟩ := hc.cell_bound hl hcell
    exact ⟨t, hold (hhandle ▸ hb)⟩
  case dropped_gone =>
    intro id hdrop
    rcases List.mem_append.1 hdrop with hdrop | hdrop
    · obtain ⟨hnone, hlt⟩ := hc.dropped_gone hdrop
      exact ⟨hloses.local?_none hlt hnone, Nat.lt_of_lt_of_le hlt hloses.locals_length⟩
    · exact hdropped id hdrop

/-- Nothing happens to any value. -/
theorem same (hc : Chronicle es s) (hs' : s'.Sound) (hloses : s.Loses [] s') :
    Chronicle es s' := by
  have hsame := hc.loses [] hs' hloses rfl .nil nofun nofun
  rwa [List.append_nil] at hsame

/-! ### What is seen of the values -/

/-- The values of a thread local are those bound through it and not freed. -/
theorem mem_cellsOf_iff (hc : Chronicle es s) :
    c ∈ s.cellsOf id ↔ (∃ t i, .bound t i id c ∈ es) ∧ c ∉ freedCells es := by
  constructor
  · intro hmem
    cases hl : s.local? id with
    | none => simp [cellsOf_of_local?_none hl] at hmem
    | some l =>
        rw [cellsOf_of_local? hl] at hmem
        obtain ⟨t, hbound⟩ := hc.cell_bound hl hmem
        exact ⟨⟨t, _, hbound⟩, (hc.filled_iff.1 (hc.filled hl hmem)).2⟩
  · rintro ⟨⟨t, i, hbound⟩, hfreed⟩
    obtain ⟨id', l, hl, hmem⟩ :=
      hc.owned (hc.filled_iff.2 ⟨mem_boundCells.2 ⟨t, i, id, hbound⟩, hfreed⟩)
    obtain ⟨t', hbound'⟩ := hc.cell_bound hl hmem
    obtain ⟨-, -, rfl⟩ := bound_inj hc.bound_nodup hbound hbound'
    rwa [cellsOf_of_local? hl]

/-- What a thread sees through a thread local it has bound through it. -/
theorem bound_of_cellOf? (hc : Chronicle es s) (hcell : s.cellOf? t id = some c) :
    ∃ i, .bound t i id c ∈ es := by
  cases hl : s.local? id with
  | none => simp [cellOf?_of_local?_none hl] at hcell
  | some l =>
      obtain ⟨b, hb, rfl, rfl⟩ := (hc.toSound.cellOf?_eq_some_iff' hl).1 hcell
      exact ⟨_, hc.binding_bound hb⟩

theorem map_some_valuesOf (hc : Chronicle es s) (id : LocalId) :
    (s.valuesOf id).map some = (s.cellsOf id).map s.cell? := by
  have hfilled : ∀ c ∈ s.cellsOf id, (s.cell? c).isSome := by
    intro c hmem
    obtain ⟨⟨t, i, hbound⟩, hfreed⟩ := hc.mem_cellsOf_iff.1 hmem
    exact hc.filled_iff.2 ⟨mem_boundCells.2 ⟨t, i, id, hbound⟩, hfreed⟩
  unfold valuesOf
  generalize s.cellsOf id = cells at hfilled
  induction cells with
  | nil => rfl
  | cons c cells ih =>
      obtain ⟨v, hv⟩ := Option.isSome_iff_exists.1 (hfilled c List.mem_cons_self)
      have hrest := ih fun c' hmem => hfilled c' (List.mem_cons_of_mem _ hmem)
      simp [hv, hrest]

/-! ### What each operation does -/

theorem touch (hc : Chronicle es s) (t : ThreadId) : Chronicle es (s.touch t) :=
  hc.same (hc.toSound.touch t)
    (Loses.of_eq (s.at?_touch t) (fun _ => rfl) (fun _ => rfl) rfl rfl)

theorem modifyAll (hc : Chronicle es s) (id : LocalId) (f : Nat → Payload → Payload) :
    Chronicle es (s.modifyAll id f) :=
  hc.same (hc.toSound.modifyAll id f)
    (Loses.of_eq (fun _ _ => rfl) (fun _ => rfl) (isSome_cell?_modifyAll hc.toSound id f) rfl
      (length_foldl_visit f _ s.cells))

theorem release (hc : Chronicle es s) (h : SlotHandle) : Chronicle es (s.release h).1 :=
  hc.same (hc.toSound.release h)
    (Loses.of_eq (fun _ _ => rfl) (fun _ => rfl) (fun _ => rfl) rfl rfl)

theorem allocate (hc : Chronicle es s) (ha : s.allocate = (s', .ok h)) :
    Chronicle es s' ∧ s'.Reserved h := by
  obtain ⟨hs', hr⟩ := hc.toSound.allocate ha
  refine ⟨hc.same hs' ?_, hr⟩
  rcases s.allocate_cases with herr | ⟨i, -, hok⟩
  · simp [herr] at ha
  · rw [hok, Prod.mk.injEq] at ha
    obtain ⟨rfl, -⟩ := ha
    exact Loses.of_eq (fun _ _ => rfl) (fun _ => rfl) (fun _ => rfl) rfl rfl

theorem create (hc : Chronicle es s) (hr : s.Reserved h) : Chronicle es (s.create h).1 := by
  refine hc.same (hc.toSound.create hr) ?_
  constructor
  case at?_some => exact id
  case cell_mem =>
    intro id l' c hl' hmem
    rcases local?_create_some hl' with ⟨-, rfl⟩ | hl
    · cases hmem
    · exact ⟨l', hl, rfl, hmem⟩
  case local?_none =>
    intro id hlt hnone
    rw [local?_create, if_neg (Nat.ne_of_lt hlt), hnone]
  case locals_length => simp [Locals.create]
  case cells_length => rfl
  case cell?_none =>
    intro c
    simp [Locals.create, Locals.cell?]

theorem binds (hc : Chronicle es s) (hl : s.local? id = some l) (hb : s.Binds t id l v s') :
    Chronicle (es ++ [.bound t l.handle.index id s.cells.length]) s' := by
  have hcells : boundCells (es ++ [.bound t l.handle.index id s.cells.length]) =
      boundCells es ++ [s.cells.length] := boundCells_append _ _
  have hfreed : freedCells (es ++ [.bound t l.handle.index id s.cells.length]) =
      freedCells es := (freedCells_append _ _).trans (List.append_nil _)
  have hold : ∀ {e}, e ∈ es → e ∈ es ++ [.bound t l.handle.index id s.cells.length] :=
    fun he => List.mem_append_left _ he
  have hnew : .bound t l.handle.index id s.cells.length ∈
      es ++ [.bound t l.handle.index id s.cells.length] :=
    List.mem_append_right _ List.mem_cons_self
  constructor
  case toSound => exact hc.toSound.binds hl hb
  case bound_lt =>
    intro c hmem
    rw [hb.cells_length]
    rcases List.mem_append.1 (hcells ▸ hmem) with hmem | hmem
    · exact Nat.lt_succ_of_lt (hc.bound_lt hmem)
    · rw [List.mem_singleton.1 hmem]
      exact Nat.lt_succ_self _
  case bound_nodup =>
    rw [hcells]
    refine List.nodup_append.2 ⟨hc.bound_nodup, List.pairwise_singleton _ _, ?_⟩
    rintro c hmem _ hlast rfl
    exact Nat.ne_of_lt (hc.bound_lt hmem) (List.mem_singleton.1 hlast)
  case freed_nodup => exact hfreed ▸ hc.freed_nodup
  case freed_iff =>
    intro c
    rw [hfreed, hcells, hb.cell?, hc.freed_iff, List.mem_append, List.mem_singleton]
    by_cases hne : c = s.cells.length
    · have hout : c ∉ boundCells es := fun hmem => Nat.ne_of_lt (hc.bound_lt hmem) hne
      simp [hne, hne ▸ hout]
    · simp [hne]
  case id_lt =>
    intro t' i id' c hmem
    rw [hb.locals_length]
    rcases List.mem_append.1 hmem with hmem | hmem
    · exact hc.id_lt hmem
    · cases List.mem_singleton.1 hmem
      exact local?_lt hl
  case binding_bound =>
    intro t' i b hb'
    rcases hb.at?_some hb' with ⟨rfl, rfl, rfl⟩ | ⟨-, hb'⟩
    · exact hnew
    · exact hold (hc.binding_bound hb')
  case cell_bound =>
    intro id' l' c hl' hmem
    rcases hb.local?_some hl' with ⟨rfl, rfl⟩ | ⟨-, hl'⟩
    · rcases List.mem_append.1 hmem with hmem | hmem
      · obtain ⟨t', hb'⟩ := hc.cell_bound hl hmem
        exact ⟨t', hold hb'⟩
      · rw [List.mem_singleton.1 hmem]
        exact ⟨t, hnew⟩
    · obtain ⟨t', hb'⟩ := hc.cell_bound hl' hmem
      exact ⟨t', hold hb'⟩
  case dropped_gone =>
    intro id' hdrop
    have hdrop : .dropped id' ∈ es := by simpa using hdrop
    obtain ⟨hnone, hlt⟩ := hc.dropped_gone hdrop
    have hne : id' ≠ id := by
      rintro rfl
      rw [hl] at hnone
      cases hnone
    exact ⟨(hb.local? id').trans ((if_neg hne).trans hnone), hb.locals_length ▸ hlt⟩

/-- Cells are emptied, and their values freed. -/
theorem frees {cs : List CellId} {e : ValueEvent} (hc : Chronicle es s) (hs' : s'.Sound)
    (hloses : s.Loses cs s') (hnd : cs.Nodup) (hbound : e.boundCell? = none)
    (hfreed : e.freedCell? = none)
    (hdropped : ∀ id, e = .dropped id → s'.local? id = none ∧ id < s'.locals.length) :
    Chronicle (es ++ freeing (s.contentsOf cs) ++ [e]) s' := by
  have hnew : freedCells (freeing (s.contentsOf cs) ++ [e]) =
      cs.filter fun c => (s.cell? c).isSome := by
    rw [freedCells_append, freedCells_freeing, map_fst_contentsOf]
    simp [freedCells, hfreed]
  rw [List.append_assoc]
  refine hc.loses _ hs' (hnew ▸ hloses.filled) ?_ ?_ ?_ ?_
  · rw [boundCells_append, boundCells_freeing]
    simp [boundCells, hbound]
  · exact hnew ▸ hnd.filter _
  · intro c hmem
    rw [hnew] at hmem
    exact (List.mem_filter.1 hmem).2
  · intro id hdrop
    rcases List.mem_append.1 hdrop with hdrop | hdrop
    · simp [freeing] at hdrop
    · exact hdropped id (List.mem_singleton.1 hdrop).symm

theorem detaches (hc : Chronicle es s) (hl : s.local? id = some l)
    (hd : s.Detaches t id l s') :
    Chronicle (es ++ freeing (s.contentsOf (s.cellsOf id)) ++ [.dropped id]) s' := by
  rw [cellsOf_of_local? hl]
  refine hc.frees (hc.toSound.detaches hl hd) (.of_detaches hd) (hc.nodup hl) rfl rfl ?_
  rintro _ ⟨rfl⟩
  exact ⟨(hd.local? id).trans (if_pos rfl), hd.locals_length ▸ local?_lt hl⟩

theorem ends (hc : Chronicle es s) (t : ThreadId) :
    Chronicle (es ++ freeing (s.leftBehind t) ++ [.ended t]) (s.endThread t).1 := by
  have he := hc.toSound.ends_endThread t
  rw [hc.toSound.leftBehind_eq]
  exact hc.frees (hc.toSound.ends he) (.of_ends he) (hc.toSound.nodup_remaining t) rfl rfl nofun

theorem refused (hc : Chronicle es s) (v : Payload) : Chronicle (es ++ [.refused v]) s :=
  hc.loses [.refused v] hc.toSound (.refl s) rfl .nil nofun
    fun _ hdrop => nomatch List.mem_singleton.1 hdrop

/-- A thread local without a value has gone. -/
theorem detachesEmpty (hc : Chronicle es s) (hl : s.local? id = some l) (hempty : l.cells = [])
    (hd : s.Detaches t id l s') : Chronicle es s' :=
  hc.same (hc.toSound.detaches hl hd) (hempty ▸ .of_detaches hd)

end Chronicle

/-- Paths keep the chronicle, one lemma for each step. -/
theorem ValuePath.chronicle {start s : Locals Payload} {es : List ValueEvent}
    (path : ValuePath start es s) (hstart : Chronicle [] start) : Chronicle es s := by
  induction path with
  | nil => exact hstart
  | touch t _ ih => exact ih.touch t
  | modifyAll id f _ ih => exact ih.modifyAll id f
  | release h _ ih => exact ih.release h
  | allocate _ ha ih => exact (ih.allocate ha).1
  | create _ hr ih => exact ih.create hr
  | bind _ hl hb ih => exact ih.binds hl hb
  | refuse v _ ih => exact ih.refused v
  | detach _ hl hd ih => exact ih.detaches hl hd
  | detachEmpty _ hl hempty hd ih => exact ih.detachesEmpty hl hempty hd
  | endThread t _ ih => exact ih.ends t

end Hosted

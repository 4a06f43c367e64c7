import Hosted.Proofs.ThreadLocals.Chronicle
import Hosted.Proofs.ThreadLocals.Freed
import Hosted.Proofs.ThreadLocals.Map

/-!
# The life of a value

`ValueRun` are the courses of a process in which thread locals are made, used and
dropped and threads end, while raw slots are taken and any handle at all is given back.
Each operation is a path of small steps on thread locals, and so every run has a
chronicle: what a thread sees is still there, and what has been freed is in no list of
values any more.
-/

namespace Hosted

open ValueEvent Locals

/-- The tag that is noticed with an event. -/
def ValueEvent.freedTag? : ValueEvent → Option String
  | refused v => v.tag?
  | freed _ v => v.tag?
  | _ => none

/-- The process goes from its beginning to `w` through the events. Between two of them
anything may happen that leaves the thread locals alone and frees no value. -/
inductive ValueRun (settings : Settings) : List ValueEvent → World → Prop where
  | fresh : ValueRun settings [] (.fresh settings)
  | aside {es w w'} : ValueRun settings es w → w'.locals = w.locals →
      w'.freedTags = w.freedTags → ValueRun settings es w'
  | made {es w id l} (t v) : ValueRun settings es w → (w.tryNewLocal t v).2 = .ok id →
      (w.tryNewLocal t v).1.locals.local? id = some l →
      ValueRun settings (es ++ [.bound t l.handle.index id w.locals.cells.length])
        (w.tryNewLocal t v).1
  | unmade {es w f} (t v) : ValueRun settings es w → (w.tryNewLocal t v).2 = .error f →
      ValueRun settings (es ++ [.refused v]) (w.tryNewLocal t v).1
  | got {es w} (t id) : ValueRun settings es w → ValueRun settings es (w.getLocal t id).1
  /-- A value is bound for a thread, whatever the thread has bound before. -/
  | bound {es w l} (t id v) : ValueRun settings es w → w.locals.local? id = some l →
      (w.bindValue t id v).2 = .ok () →
      ValueRun settings (es ++ [.bound t l.handle.index id w.locals.cells.length])
        (w.bindValue t id v).1
  | refused {es w l f} (t id v) : ValueRun settings es w → w.locals.local? id = some l →
      (w.bindValue t id v).2 = .error f →
      ValueRun settings (es ++ [.refused v]) (w.bindValue t id v).1
  | changed {es w} (id f) : ValueRun settings es w →
      ValueRun settings es { w with locals := w.locals.modifyAll id f }
  | dropped {es w} (t id) : ValueRun settings es w → (w.locals.local? id).isSome →
      ValueRun settings
        (es ++ freeing (w.locals.contentsOf (w.locals.cellsOf id)) ++ [.dropped id])
        (w.dropLocal t id)
  | ended {es w} (t) : ValueRun settings es w →
      ValueRun settings (es ++ freeing (w.locals.leftBehind t) ++ [.ended t]) (w.endThread t)
  | took {es w} : ValueRun settings es w → ValueRun settings es w.takeSlot.1
  | gave {es w} (h) : ValueRun settings es w → ValueRun settings es (w.giveSlot h).1

theorem ValueEvent.freedTags_freeing (values : List (CellId × Payload)) :
    (freeing values).filterMap freedTag? = (values.map (·.2)).filterMap Payload.tag? := by
  rw [freeing, List.filterMap_map, List.filterMap_map]
  rfl

theorem chronicle_fresh (settings : Settings) :
    Chronicle [] (World.fresh settings).locals where
  toSound := (BindingMap.describes_fresh settings).exact.toSound
  bound_lt := nofun
  bound_nodup := .nil
  freed_nodup := .nil
  freed_iff := ⟨nofun, nofun⟩
  id_lt := nofun
  binding_bound := nofun
  cell_bound := nofun
  dropped_gone := nofun

/-! ## Runs -/

namespace ValueRun

variable {settings : Settings} {es : List ValueEvent} {w : World}

/-- Every operation is a path of small steps. -/
theorem path (run : ValueRun settings es w) :
    ValuePath (World.fresh settings).locals es w.locals := by
  induction run with
  | fresh => exact .nil
  | aside _ hlocals _ ih => exact hlocals ▸ ih
  | @made es w id l t v _ hok hl ih =>
      rcases w.tryNewLocal_cases t v with
        ⟨w', f, herr, -⟩ | ⟨s, h, ha, ⟨w', hmade, hb⟩ | ⟨w', f, s', herr, -⟩⟩
      · rw [herr] at hok
        cases hok
      · rw [hmade] at hok hl ⊢
        cases hok
        have hcells : s.cells = w.locals.cells := cells_allocate ha
        have hhandle : l.handle = h := by
          rcases hb.local?_some hl with ⟨-, rfl⟩ | ⟨hne, -⟩
          · rfl
          · exact absurd rfl hne
        have hr := ((ih.chronicle (chronicle_fresh settings)).allocate ha).2
        rw [hhandle, ← hcells]
        exact ((ih.allocate ha).create hr).bind ((local?_create _ _ _).trans (if_pos rfl)) hb
      · rw [herr] at hok
        cases hok
  | @unmade es w f t v _ herr ih =>
      rcases w.tryNewLocal_cases t v with
        ⟨w', f, hfull, hlocals⟩ | ⟨s, h, ha, ⟨w', hmade, -⟩ | ⟨w', f, s', hlate, hd, hlocals⟩⟩
      · rw [hfull]
        exact hlocals ▸ ih.refuse v
      · rw [hmade] at herr
        cases herr
      · have hr := ((ih.chronicle (chronicle_fresh settings)).allocate ha).2
        have hnew := ((ih.allocate ha).create hr).refuse v
        rw [hlate]
        have hgone := hnew.detachEmpty ((local?_create _ _ _).trans (if_pos rfl)) rfl hd
        exact hlocals ▸ hgone.release h
  | got t id _ ih => exact ih.touch t
  | @bound es w l t id v _ hl hok ih =>
      rcases World.bindValue_cases hl t v with ⟨-, w', herr, -⟩ | ⟨-, w', hbind, hb⟩
      · rw [herr] at hok
        cases hok
      · rw [hbind]
        exact ih.bind hl hb
  | @refused es w l f t id v _ hl herr ih =>
      rcases World.bindValue_cases hl t v with ⟨-, w', hlate, hlocals⟩ | ⟨-, w', hbind, -⟩
      · rw [hlate]
        exact hlocals ▸ ih.refuse v
      · rw [hbind] at herr
        cases herr
  | changed id f _ ih => exact ih.modifyAll id f
  | @dropped es w t id _ hlive ih =>
      obtain ⟨l, hl⟩ := Option.isSome_iff_exists.1 hlive
      obtain ⟨s', hd, hlocals⟩ := World.dropLocal_some hl t
      exact hlocals ▸ (ih.detach hl hd).release l.handle
  | @ended es w t _ ih => exact w.locals_endThread t ▸ ih.endThread t
  | @took es w _ ih =>
      rcases w.takeSlot_cases with ⟨w', htake, hlocals⟩ | ⟨w', h, htake, ha⟩
      · rw [htake]
        exact hlocals ▸ ih
      · rw [htake]
        exact ih.allocate ha
  | @gave es w h _ ih => exact w.locals_giveSlot h ▸ ih.release h

/-- What is noticed of freed values is what was freed. -/
theorem freedTags (run : ValueRun settings es w) : w.freedTags = es.filterMap freedTag? := by
  induction run with
  | fresh => rfl
  | aside _ _ htags ih => exact htags.trans ih
  | @made es w id l t v _ hok hl ih =>
      have htags := w.freedTags_tryNewLocal t v
      rw [hok] at htags
      simp [htags, ih, freedTag?]
  | @unmade es w f t v _ herr ih =>
      have htags := w.freedTags_tryNewLocal t v
      rw [herr] at htags
      rw [htags, ih, List.filterMap_append]
      cases htag : v.tag? <;> simp [freedTag?, htag]
  | got t id _ ih => exact ih
  | @bound es w l t id v _ hl hok ih =>
      have htags := w.freedTags_bindValue t id v
      rw [hok] at htags
      simp [htags, ih, freedTag?]
  | @refused es w l f t id v _ _ herr ih =>
      have htags := w.freedTags_bindValue t id v
      rw [herr] at htags
      rw [htags, ih, List.filterMap_append]
      cases htag : v.tag? <;> simp [freedTag?, htag]
  | changed id f _ ih => exact ih
  | @dropped es w t id _ hlive ih =>
      have htags := w.freedTags_dropLocal t id
      rw [htags, ih, List.filterMap_append, List.filterMap_append, freedTags_freeing,
        map_snd_contentsOf]
      simp [freedTag?, valuesOf]
  | @ended es w t _ ih =>
      rw [w.freedTags_endThread, ih, List.filterMap_append, List.filterMap_append,
        freedTags_freeing, map_snd_leftBehind]
      simp [freedTag?]
  | @took es w _ ih => exact w.freedTags_takeSlot.trans ih
  | @gave es w h _ ih => exact (w.freedTags_giveSlot h).trans ih

/-- A lookup that finds a value binds none, whatever the initializer is. -/
theorem kept (run : ValueRun settings es w) {t : ThreadId} {id : LocalId} {v : Payload}
    (hv : w.locals.get? t id = some v) (init : World → World × Payload) :
    ValueRun settings es (w.tryGetOr t id init).1 := by
  rw [World.tryGetOr_of_some hv]
  exact run.got t id

section Initializer

variable (t : ThreadId) (id : LocalId) (init : World → World × Payload) {l : Local} {v : Payload}
  {f : Fault} (hnone : w.locals.get? t id = none)
  (run : ValueRun settings es (init (w.getLocal t id).1).1)
  (hl : (init (w.getLocal t id).1).1.locals.local? id = some l)

include hnone run hl

/-- A lookup that finds none runs the initializer, which may itself use thread locals,
and binds what it has made. -/
theorem filled (hok : (w.tryGetOr t id init).2 = .ok v) :
    ValueRun settings (es ++ [.bound t l.handle.index id
      (init (w.getLocal t id).1).1.locals.cells.length]) (w.tryGetOr t id init).1 := by
  rw [World.tryGetOr_of_none hnone] at hok ⊢
  generalize init (w.getLocal t id).1 = made at run hl hok ⊢
  cases hresult : (made.1.bindValue t id made.2).2 with
  | ok u => exact run.bound t id made.2 hl hresult
  | error f =>
      rw [hresult] at hok
      cases hok

/-- What the initializer has made is freed if its thread has ended. -/
theorem unfilled (herr : (w.tryGetOr t id init).2 = .error f) :
    ValueRun settings (es ++ [.refused (init (w.getLocal t id).1).2])
      (w.tryGetOr t id init).1 := by
  rw [World.tryGetOr_of_none hnone] at herr ⊢
  generalize init (w.getLocal t id).1 = made at run hl herr ⊢
  cases hresult : (made.1.bindValue t id made.2).2 with
  | ok u =>
      rw [hresult] at herr
      cases herr
  | error f => exact run.refused t id made.2 hl hresult

end Initializer

end ValueRun

/-- What becomes of every value by the events, and what is still seen of the values. -/
structure Lifetimes (es : List ValueEvent) (w : World) : Prop where
  bound_once : (boundCells es).Nodup
  freed_once : ∀ c, (freedCells es).count c ≤ 1
  freed_bound : ∀ c ∈ freedCells es, c ∈ boundCells es
  freed_of_dropped : ∀ t i id c, .bound t i id c ∈ es → .dropped id ∈ es →
    (freedCells es).count c = 1
  noticed : w.freedTags = es.filterMap freedTag?
  /-- What a thread sees through a thread local, it has bound itself through it. -/
  get : ∀ t id v, (w.getLocal t id).2 = some v →
    ∃ i c, .bound t i id c ∈ es ∧ c ∉ freedCells es ∧ w.locals.cell? c = some v ∧
      ∀ t' i' id', .bound t' i' id' c ∈ es → t' = t ∧ id' = id
  /-- The values visited are those bound through the thread local and not freed. -/
  visited : ∀ id, ∃ cells : List CellId, cells.Nodup ∧
    (∀ c, c ∈ cells ↔ (∃ t i, .bound t i id c ∈ es) ∧ c ∉ freedCells es) ∧
    (w.locals.valuesOf id).map some = cells.map w.locals.cell? ∧
    (∀ f c, (w.locals.modifyAll id f).cell? c =
      if c ∈ cells then (w.locals.cell? c).map (f (cells.idxOf c)) else w.locals.cell? c) ∧
    w.locals.boundCount id = cells.length

/-- In every run, whatever handles are given back, each value is freed at most once, and
has been freed once its thread local is dropped; and no thread sees a value that was
freed, or one that another thread or another thread local has bound. -/
theorem ValueRun.lifetimes {settings : Settings} {es : List ValueEvent} {w : World}
    (run : ValueRun settings es w) : Lifetimes es w := by
  have hc := run.path.chronicle (chronicle_fresh settings)
  constructor
  case bound_once => exact hc.bound_nodup
  case freed_once => exact List.nodup_iff_count_le_one.1 hc.freed_nodup
  case freed_bound => exact fun c hfreed => (hc.freed_iff.1 hfreed).1
  case freed_of_dropped =>
    intro t i id c hbound hdrop
    refine List.count_eq_one_of_mem hc.freed_nodup ?_
    by_contra hfreed
    have hmem := hc.mem_cellsOf_iff.2 ⟨⟨t, i, hbound⟩, hfreed⟩
    rw [cellsOf_of_local?_none (hc.dropped_gone hdrop).1] at hmem
    cases hmem
  case noticed => exact run.freedTags
  case get =>
    intro t id v hv
    obtain ⟨c, hcell, hcv⟩ := Option.bind_eq_some_iff.1 hv
    obtain ⟨i, hbound⟩ := hc.bound_of_cellOf? hcell
    refine ⟨i, c, hbound, ?_, hcv, ?_⟩
    · exact (hc.filled_iff.1 (hcv ▸ rfl)).2
    · intro t' i' id' hbound'
      obtain ⟨rfl, -, rfl⟩ := bound_inj hc.bound_nodup hbound hbound'
      exact ⟨rfl, rfl⟩
  case visited =>
    intro id
    exact ⟨w.locals.cellsOf id, hc.toSound.nodup_cellsOf id, fun c => hc.mem_cellsOf_iff,
      hc.map_some_valuesOf id,
      fun f c => cell?_modifyAll _ id f (hc.toSound.nodup_cellsOf id) c, rfl⟩

/-- The slot of a live thread local is given back, and another thread local gets its
index. A thread then binds a value through each, and sees only the later one. At its end
it frees the later one; the earlier one goes with its thread local. -/
theorem ValueRun.lifetimes_shared_index :
    ∃ w, Lifetimes
        [.bound 0 0 0 0, .bound 0 0 1 1, .bound 1 0 0 2, .bound 1 0 1 3,
          .freed 3 (.tracked "d"), .ended 1, .freed 0 (.tracked "a"), .freed 2 (.tracked "c"),
          .dropped 0] w ∧
      w.freedTags = ["d", "a", "c"] ∧ (w.getLocal 0 1).2 = some (.tracked "b") := by
  have hrun : ValueRun {} _ _ :=
    .dropped 0 0
      (.ended 1
        (.bound 1 1 (.tracked "d")
          (.bound 1 0 (.tracked "c")
            (.made 0 (.tracked "b")
              (.gave ⟨0, 1⟩ (.made 0 (.tracked "a") .fresh rfl rfl)) rfl rfl)
            rfl rfl)
          rfl rfl))
      rfl
  exact ⟨_, hrun.lifetimes, rfl, rfl⟩

end Hosted

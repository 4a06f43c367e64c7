import Hosted.Proofs.References.Exchange
import Hosted.Proofs.References.Weight

/-!
# References in the values of thread locals

The settings of threads lie in cells and hold a reference each. What an operation on
thread locals frees it hands over, and a value that is bound takes its reference along.
Tagged values hold none, so the operations on them move no reference.
-/

namespace Hosted

namespace Locals

variable (s : Locals Payload)

theorem flatMap_filterMap_cell? (cs : List CellId) :
    (cs.filterMap s.cell?).flatMap Payload.holdings =
      cs.flatMap fun c => cellHoldings (s.cell? c) := by
  induction cs with
  | nil => rfl
  | cons c cs ih =>
      rw [List.flatMap_cons, ← ih]
      cases hc : s.cell? c with
      | none => rw [List.filterMap_cons_none hc]; rfl
      | some v => rw [List.filterMap_cons_some hc, List.flatMap_cons]; rfl

/-- The references that values hold, by their weight. -/
theorem weigh_holdings (x : Holding) :
    (s.weigh fun v => v.holdings.count x) = (s.cells.flatMap cellHoldings).count x := by
  rw [weigh, List.count_flatMap]
  refine congrArg List.sum (List.map_congr_left fun cell _ => ?_)
  cases cell <;> rfl

/-- Emptying a cell takes away what its value holds. -/
theorem count_freeCell (c : CellId) (x : Holding) :
    ((s.freeCell c).cells.flatMap cellHoldings).count x +
        (cellHoldings (s.cell? c)).count x =
      (s.cells.flatMap cellHoldings).count x := by
  rw [← weigh_holdings, ← weigh_holdings, ← s.weigh_freeCell _ c]
  cases s.cell? c <;> rfl

/-- A row of cells whose values hold nothing is emptied. -/
theorem count_foldl_freeCell (cs : List CellId) (x : Holding)
    (hcs : ∀ c ∈ cs, cellHoldings (s.cell? c) = []) :
    ((cs.foldl freeCell s).cells.flatMap cellHoldings).count x =
      (s.cells.flatMap cellHoldings).count x := by
  induction cs generalizing s with
  | nil => rfl
  | cons c cs ih =>
      have hfree := s.count_freeCell c x
      rw [hcs c List.mem_cons_self, List.count_nil, Nat.add_zero] at hfree
      rw [List.foldl_cons, ih, hfree]
      intro c' hc'
      rw [cell?_freeCell]
      split
      · rfl
      · exact hcs c' (List.mem_cons_of_mem _ hc')

/-- What the values that a thread leaves hold goes with them. -/
theorem count_endThread (t : ThreadId) (x : Holding) :
    ((s.endThread t).1.cells.flatMap cellHoldings).count x +
        ((s.endThread t).2.flatMap Payload.holdings).count x =
      (s.cells.flatMap cellHoldings).count x := by
  rw [← weigh_holdings, ← weigh_holdings, List.count_flatMap]
  exact s.weigh_endThread (fun v => v.holdings.count x) t

/-- Changing values exchanges what the old ones hold for what the new ones hold. -/
theorem count_foldl_visit (f : Nat → Payload → Payload) (cells : List (Option Payload))
    (places : List (CellId × Nat)) (hnd : (places.map (·.1)).Nodup) (x : Holding) :
    ((places.foldl (fun cells (p : CellId × Nat) =>
          cells.modify p.1 (·.map (f p.2))) cells).flatMap cellHoldings).count x +
        (places.flatMap fun p => cellHoldings cells[p.1]?.join).count x =
      (cells.flatMap cellHoldings).count x +
        (places.flatMap fun p => cellHoldings (cells[p.1]?.join.map (f p.2))).count x := by
  induction places generalizing cells with
  | nil => rfl
  | cons p places ih =>
      obtain ⟨hp, hnd⟩ := List.nodup_cons.1 hnd
      have hsame : ∀ q ∈ places, (cells.modify p.1 (·.map (f p.2)))[q.1]? = cells[q.1]? := by
        intro q hq
        have hne : p.1 ≠ q.1 := by
          intro heq
          exact hp (List.mem_map.2 ⟨q, hq, heq.symm⟩)
        simp [hne]
      have hsame' : ∀ g : Option Payload → Nat → List Holding,
          (places.flatMap fun q => g (cells.modify p.1 (·.map (f p.2)))[q.1]?.join q.2) =
            places.flatMap fun q => g cells[q.1]?.join q.2 :=
        fun g => List.flatMap_congr fun q hq => by rw [hsame q hq]
      have hrest := ih (cells.modify p.1 (·.map (f p.2))) hnd
      rw [hsame' fun v _ => cellHoldings v, hsame' fun v i => cellHoldings (v.map (f i))] at hrest
      have hstep : ((cells.modify p.1 (·.map (f p.2))).flatMap cellHoldings).count x +
          (cellHoldings cells[p.1]?.join).count x =
          (cells.flatMap cellHoldings).count x +
            (cellHoldings (cells[p.1]?.join.map (f p.2))).count x := by
        cases hc : cells[p.1]? with
        | none =>
            rw [List.modify_eq_self (List.getElem?_eq_none_iff.1 hc)]
            rfl
        | some o =>
            rw [modify_eq_set_of_getElem? hc]
            exact count_flatMap_set hc cellHoldings (o.map (f p.2)) x
      simp only [List.foldl_cons, List.flatMap_cons, List.count_append]
      omega

/-- Values are replaced by ones that hold nothing. -/
theorem count_modifyAll {id : LocalId} (hnd : (s.cellsOf id).Nodup)
    {f : Nat → Payload → Payload} (hf : ∀ i, ∀ v ∈ s.valuesOf id, (f i v).holdings = [])
    (x : Holding) :
    ((s.modifyAll id f).cells.flatMap cellHoldings).count x +
        ((s.valuesOf id).flatMap Payload.holdings).count x =
      (s.cells.flatMap cellHoldings).count x := by
  have hmap : (s.cellsOf id).zipIdx.map (·.1) = s.cellsOf id := List.zipIdx_map_fst ..
  have hvisit := count_foldl_visit f s.cells (s.cellsOf id).zipIdx (hmap.symm ▸ hnd) x
  have hold : ((s.cellsOf id).zipIdx.flatMap fun p => cellHoldings s.cells[p.1]?.join) =
      (s.valuesOf id).flatMap Payload.holdings := by
    unfold valuesOf
    rw [flatMap_filterMap_cell?, ← hmap, List.flatMap_map, hmap]
    rfl
  have hnew : ((s.cellsOf id).zipIdx.flatMap fun p =>
      cellHoldings (s.cells[p.1]?.join.map (f p.2))) = [] := by
    rw [List.flatMap_eq_nil_iff]
    rintro ⟨c, i⟩ hp
    have hc : c ∈ s.cellsOf id := by
      rw [← hmap]
      exact List.mem_map.2 ⟨_, hp, rfl⟩
    cases hv : s.cells[c]?.join with
    | none => rfl
    | some v => exact hf i v (List.mem_filterMap.2 ⟨c, hc, hv⟩)
  rw [hold, hnew] at hvisit
  exact hvisit

end Locals

namespace World

open Locals

variable {w w' : World} {hand hand' : Multiset Holding} {t : ThreadId} {id : LocalId}
  {v : Payload}

/-! ## Housing -/

theorem Housed.isSome_local? {m : BindingMap} (h : w.Housed m) {r : RegistryId} {g : Registry}
    (hg : w.registry? r = some g) : (w.locals.local? g.threadLocale).isSome :=
  (h.describes.live _).1 (h.home_live hg)

theorem Admits.holdings_eq_nil (h : w.Admits id v) (hid : ¬w.IsHome id) : v.holdings = [] := by
  obtain ⟨text, rfl⟩ := h.tracked hid
  rfl

/-- A new value has to be one for its thread local. -/
theorem Housed.bind {m : BindingMap} (h : w.Housed m)
    (hm : (m.bind t id v).Describes w' w.IsHome) (hregistries : w'.registries = w.registries)
    (hvalues : ∀ {id' u}, u ∈ w'.locals.valuesOf id' →
      u ∈ w.locals.valuesOf id' ∨ id' = id ∧ u = v)
    (hv : w.Admits id v) : w'.Housed (m.bind t id v) := by
  refine h.congr hm (fun r => by rw [World.registry?, World.registry?, hregistries])
    (fun _ hid => hid) ?_
  intro id' u hu
  rcases hvalues hu with hu | ⟨rfl, rfl⟩
  · exact h.admits hu
  · exact hv

/-! ## Freeing values -/

theorem calm_discard (w : World) (hv : v.holdings = []) : w.Calm (w.discard v) := by
  cases v with
  | tracked tag => exact w.calm_notify rfl
  | setting l =>
      cases l with
      | none => exact Calm.refl w
      | some l => cases hv

theorem calm_discards {vs : List Payload} (w : World) (hvs : ∀ v ∈ vs, v.holdings = []) :
    w.Calm (vs.foldl discard w) := by
  induction vs generalizing w with
  | nil => exact Calm.refl w
  | cons v vs ih =>
      rw [List.foldl_cons]
      exact (w.calm_discard (hvs v List.mem_cons_self)).trans
        (ih _ fun v' hv' => hvs v' (List.mem_cons_of_mem _ hv'))

theorem Kept.discard (h : w.Kept ((v.holdings : Multiset Holding) + hand)) :
    w.Keeps (w.discard v) hand := by
  cases v with
  | tracked tag =>
      exact (h.of_eq (Multiset.zero_add _)).notify rfl
  | setting l =>
      cases l with
      | none => exact h.refl.of_eq (Multiset.zero_add _)
      | some l => exact (h.of_eq (Multiset.singleton_add _ _)).releaseLocale

/-! ## Slots and thread locals of callers -/

theorem calm_takeSlot (w : World) : w.Calm w.takeSlot.1 := by
  unfold takeSlot
  rcases w.locals.allocate_cases with herr | ⟨i, -, hok⟩
  · rw [herr]
    exact { Calm.refl w with notices := ⟨[_], rfl, rfl⟩ }
  · rw [hok]
    exact { Calm.refl w with notices := ⟨[_], rfl, rfl⟩ }

theorem calm_giveSlot (w : World) (h : SlotHandle) : w.Calm (w.giveSlot h).1 := by
  have hrelease := w.locals.release_eq h
  have hcalm : w.Calm { w with locals := (w.locals.release h).1 } := by
    rw [hrelease]
    split
    · exact { Calm.refl w with }
    · exact Calm.refl w
  unfold giveSlot
  simp only
  split
  · exact hcalm.trans (calm_tally _ _)
  · exact hcalm

theorem calm_bindValue (w : World) (t : ThreadId) (id : LocalId) (hv : v.holdings = []) :
    w.Calm (w.bindValue t id v).1 := by
  unfold bindValue
  cases hl : w.locals.local? id with
  | none =>
      simp only [Locals.bind, hl]
      exact w.calm_tally _
  | some l =>
      rcases bind_cases hl t v with ⟨-, hb⟩ | ⟨-, s', hb, hbinds⟩
      · rw [hb]
        exact (w.calm_discard hv).trans (calm_log _ rfl)
      · rw [hb]
        have hcalm : w.Calm { w with locals := s' } := by
          refine { Calm.refl w with cells := ?_, locals_le := ?_ }
          · intro x
            rw [hbinds.cells, List.flatMap_append, List.flatMap_singleton]
            change List.count x (_ ++ v.holdings) = _
            rw [hv, List.append_nil]
          · exact Nat.le_of_eq hbinds.locals_length.symm
        exact hcalm.trans (calm_tally _ _)

theorem calm_dropLocal (w : World) (t : ThreadId) (id : LocalId)
    (hvs : ∀ v ∈ w.locals.valuesOf id, v.holdings = []) : w.Calm (w.dropLocal t id) := by
  unfold dropLocal
  cases hl : w.locals.local? id with
  | none =>
      rw [detach_none hl]
      exact Calm.refl w
  | some l =>
      obtain ⟨s', hd, hdet⟩ := detach_some hl t
      rw [hd]
      simp only
      refine Calm.trans ?_ (calm_giveSlot _ _)
      refine Calm.trans ?_ (calm_count _ _ _)
      refine Calm.trans ?_ (calm_discards { w with locals := s' } hvs)
      refine { Calm.refl w with cells := ?_, locals_le := ?_ }
      · intro x
        rw [hdet.cells]
        apply count_foldl_freeCell _ l.cells x
        intro c hc
        cases hv : w.locals.cell? c with
        | none => rfl
        | some v =>
            have hmem : c ∈ w.locals.cellsOf id := by rwa [cellsOf_of_local? hl]
            exact hvs v (List.mem_filterMap.2 ⟨c, hmem, hv⟩)
      · exact Nat.le_of_eq hdet.locals_length.symm

theorem calm_tryNewLocal (w : World) (t : ThreadId) (hv : v.holdings = []) :
    w.Calm (w.tryNewLocal t v).1 := by
  have htaken := w.calm_takeSlot
  unfold tryNewLocal
  generalize w.takeSlot = taken at htaken ⊢
  obtain ⟨w₁, result⟩ := taken
  cases result with
  | error f => exact htaken.trans (calm_discard _ hv)
  | ok h =>
      simp only
      have hcreated : w₁.Calm { w₁ with locals := (w₁.locals.create h).1 } :=
        { Calm.refl w₁ with
          locals_le := by
            simp only [create, List.length_append]
            exact Nat.le_add_right _ _ }
      have hid : (w₁.locals.create h).1.local? (w₁.locals.create h).2 =
          some { handle := h } := by
        rw [local?_create, create, if_pos rfl]
      generalize w₁.locals.create h = created at hcreated hid ⊢
      obtain ⟨s, id⟩ := created
      have hbound := calm_bindValue { w₁ with locals := s } t id hv
      rcases bindValue_cases (w := { w₁ with locals := s }) hid t v with
        ⟨-, w₂, hb, hlocals⟩ | ⟨-, w₂, hb, -⟩
      · rw [hb] at hbound
        simp only [hb]
        refine ((htaken.trans hcreated).trans hbound).trans (calm_dropLocal _ t id ?_)
        intro v' hv'
        have hnil : w₂.locals.valuesOf id = [] := by
          rw [valuesOf, hlocals, cellsOf_of_local? hid]
          rfl
        rw [hnil] at hv'
        exact absurd hv' List.not_mem_nil
      · rw [hb] at hbound
        simp only [hb]
        exact (htaken.trans hcreated).trans hbound

theorem Kept.takeSlot (h : w.Kept hand) : w.Keeps w.takeSlot.1 hand := by
  obtain ⟨m, hm⟩ := h.housed
  exact w.calm_takeSlot.keeps h
    (hm.congr hm.describes.takeSlot (fun r => by rw [w.calm_takeSlot.registry?])
      (fun _ hid => hid) fun hv => hm.admits (w.valuesOf_takeSlot _ ▸ hv))

theorem Kept.giveSlot (h : w.Kept hand) {hd : SlotHandle}
    (hfree : ∀ {id l}, w.locals.local? id = some l → l.handle ≠ hd) :
    w.Keeps (w.giveSlot hd).1 hand := by
  obtain ⟨m, hm⟩ := h.housed
  exact (w.calm_giveSlot hd).keeps h
    (hm.congr (hm.describes.giveSlot hfree) (fun r => by rw [Calm.registry? (w.calm_giveSlot hd)])
      (fun _ hid => hid) fun hv => hm.admits (w.valuesOf_giveSlot hd _ ▸ hv))

theorem Kept.getLocal (h : w.Kept hand) (t : ThreadId) (id : LocalId) :
    w.Keeps (w.getLocal t id).1 hand := by
  obtain ⟨m, hm⟩ := h.housed
  have hcalm : w.Calm (w.getLocal t id).1 := { Calm.refl w with }
  exact hcalm.keeps h
    (hm.congr (hm.describes.getLocal t id).2 (fun r => rfl) (fun _ hid => hid) hm.admits)

/-- A value that holds no reference is bound. A registry's thread local takes no second one. -/
theorem Kept.bindValue (h : w.Kept hand) (hv : w.Admits id v) (hnil : v.holdings = [])
    (hun : w.IsHome id → w.locals.get? t id = none) : w.Keeps (w.bindValue t id v).1 hand := by
  obtain ⟨m, hm⟩ := h.housed
  have hcalm := w.calm_bindValue t id hnil
  cases hl : w.locals.local? id with
  | none =>
      apply hcalm.keeps_of_locals_eq h
      simp only [World.bindValue, Locals.bind, hl]
      rfl
  | some l =>
      have hlive : id ∈ m.live := (hm.describes.live id).2 (by rw [hl]; rfl)
      have hun' : w.IsHome id → m.value? t id = none :=
        fun hid => (hm.describes.get? t id).symm.trans (hun hid)
      have hadmits : ∀ {id' u}, u ∈ (w.bindValue t id v).1.locals.valuesOf id' →
          w.Admits id' u := by
        intro id' u hu
        rcases mem_valuesOf_bindValue hm.describes.exact.toCellsOwned hu with hu | ⟨rfl, rfl⟩
        · exact hm.admits hu
        · exact hv
      rcases hm.describes.bindValue hlive hun' v with ⟨-, -, hm'⟩ | ⟨-, -, -, hm'⟩
      · exact hcalm.keeps h
          (hm.congr hm' (fun r => by rw [hcalm.registry?]) (fun _ hid => hid) hadmits)
      · exact hcalm.keeps h
          (hm.congr hm' (fun r => by rw [hcalm.registry?]) (fun _ hid => hid) hadmits)

theorem Kept.dropLocal (h : w.Kept hand) (t : ThreadId) (hid : ¬w.IsHome id) :
    w.Keeps (w.dropLocal t id) hand := by
  obtain ⟨m, hm⟩ := h.housed
  have hcalm := w.calm_dropLocal t id fun v hv => (hm.admits hv).holdings_eq_nil hid
  refine hcalm.keeps h (hm.congr (hm.describes.dropLocal t id)
    (fun r => by rw [hcalm.registry?]) ?_ fun hv => hm.admits (mem_valuesOf_dropLocal hv))
  intro id' hid' hlive
  have hne : id' ≠ id := by
    rintro rfl
    exact hid hid'
  exact List.mem_filter.2 ⟨hlive, decide_eq_true hne⟩

theorem Kept.tryNewLocal (h : w.Kept hand) (t : ThreadId) (text : String) :
    w.Keeps (w.tryNewLocal t (.tracked text)).1 hand := by
  obtain ⟨m, hm⟩ := h.housed
  have hcalm := w.calm_tryNewLocal t (v := .tracked text) rfl
  have hvalues := fun id' u => @mem_valuesOf_tryNewLocal w t id' u (.tracked text)
    hm.describes.exact.toSound
  rcases hm.describes.tryNewLocal t (.tracked text) with
    ⟨id, hok, -, hnew, -, hm'⟩ | ⟨herr, hm'⟩
  · have hid : ¬w.IsHome id := by
      rintro ⟨r, g, hg, rfl⟩
      exact hnew (hm.home_live hg)
    refine hcalm.keeps h (hm.congr (hm'.mono fun _ => Or.inr) (fun r => by rw [hcalm.registry?])
      (fun _ hlive => List.mem_cons_of_mem _ hlive) ?_)
    intro id' u hu
    rcases hvalues id' u hu with hu | ⟨hok', rfl⟩
    · exact hm.admits hu
    · obtain rfl : id = id' := Except.ok.inj (hok.symm.trans hok')
      exact ⟨fun hid' => absurd hid' hid, fun _ => ⟨text, rfl⟩⟩
  · refine hcalm.keeps h (hm.congr hm' (fun r => by rw [hcalm.registry?]) (fun _ hid => hid) ?_)
    intro id' u hu
    rcases hvalues id' u hu with hu | ⟨hok, -⟩
    · exact hm.admits hu
    · rcases herr with herr | ⟨-, index, herr⟩
      · exact nomatch hok.symm.trans herr
      · exact nomatch hok.symm.trans herr

theorem Kept.ofCallers_of_tryNewLocal (h : w.Kept hand) {t : ThreadId} {text : String}
    (hok : (w.tryNewLocal t (.tracked text)).2 = .ok id) :
    (w.tryNewLocal t (.tracked text)).1.OfCallers id := by
  obtain ⟨m, hm⟩ := h.housed
  have hlen := eq_length_of_tryNewLocal hok
  rcases hm.describes.tryNewLocal t (.tracked text) with
    ⟨id', hok', -, -, -, hm'⟩ | ⟨herr | ⟨-, _, herr⟩, -⟩
  · rw [hok, Except.ok.injEq] at hok'
    subst hok'
    obtain ⟨l, hl⟩ := Option.isSome_iff_exists.1 ((hm'.live id).1 List.mem_cons_self)
    refine ⟨Locals.local?_lt hl, ?_⟩
    rintro ⟨r, g, hg, hgid⟩
    rw [Calm.registry? (w.calm_tryNewLocal t (v := .tracked text) rfl)] at hg
    obtain ⟨l', hl'⟩ := Option.isSome_iff_exists.1 (hm.isSome_local? hg)
    have hlt := Locals.local?_lt hl'
    rw [hgid, hlen] at hlt
    exact Nat.lt_irrefl _ hlt
  · rw [hok] at herr
    cases herr
  · rw [hok] at herr
    cases herr

/-- The values of a thread local of a caller are changed. -/
theorem Kept.modifyAll (h : w.Kept hand) (hid : ¬w.IsHome id) {f : Nat → Payload → Payload}
    (hf : ∀ i text, ∃ text', f i (.tracked text) = .tracked text') :
    w.Keeps { w with locals := w.locals.modifyAll id f } hand := by
  obtain ⟨m, hm⟩ := h.housed
  have hnil : ∀ v ∈ w.locals.valuesOf id, v.holdings = [] :=
    fun v hv => (hm.admits hv).holdings_eq_nil hid
  have hnil' : ∀ i, ∀ v ∈ w.locals.valuesOf id, (f i v).holdings = [] := by
    intro i v hv
    obtain ⟨text, rfl⟩ := (hm.admits hv).tracked hid
    obtain ⟨text', htext⟩ := hf i text
    rw [htext]
    rfl
  have hcalm : w.Calm { w with locals := w.locals.modifyAll id f } := by
    refine { Calm.refl w with cells := ?_, locals_le := Nat.le_refl _ }
    intro x
    have hcount := count_modifyAll w.locals
      (hm.describes.exact.toSound.nodup_cellsOf id) hnil' x
    rw [List.flatMap_eq_nil_iff.2 hnil, List.count_nil, Nat.add_zero] at hcount
    exact hcount
  obtain ⟨m', hm', hlive, -, -⟩ := hm.describes.modifyAll id f
  refine hcalm.keeps h (hm.congr hm' (fun r => rfl) (fun _ hid => hlive ▸ hid) ?_)
  intro id' u hu
  rcases hm.describes.exact.toSound.mem_valuesOf_modifyAll hu with
    ⟨-, hu⟩ | ⟨rfl, i, v, hv, rfl⟩
  · exact hm.admits hu
  · obtain ⟨text, rfl⟩ := (hm.admits hv).tracked hid
    exact ⟨fun hid' => absurd hid' hid, fun _ => hf i text⟩

/-! ## Settings of threads -/

theorem Kept.foldl_discard {vs : List Payload}
    (h : w.Kept ((vs.flatMap Payload.holdings : Multiset Holding) + hand)) :
    w.Keeps (vs.foldl (fun w v => (w.discard v).tally .valuesFreed) w) hand := by
  induction vs generalizing w with
  | nil => exact (h.of_eq (Multiset.zero_add _)).refl
  | cons v vs ih =>
      rw [List.flatMap_cons, ← Multiset.coe_add, Multiset.add_assoc] at h
      have hstep := h.discard.trans (h.discard.kept.tally .valuesFreed)
      exact hstep.trans (ih hstep.kept)

/-- A thread that ends gives up the references in its settings. -/
theorem Kept.endThread (h : w.Kept hand) (t : ThreadId) : w.Keeps (w.endThread t) hand := by
  obtain ⟨m, hm⟩ := h.housed
  let w₁ : World := { w with locals := (w.locals.endThread t).1 }
  have hm₁ : w₁.Housed (m.exit t) := by
    refine hm.congr ((hm.describes.endThread t).of_locals_eq (w.locals_endThread t).symm)
      (fun r => rfl) (fun _ hlive => hlive) fun hv => hm.admits ?_
    exact (hm.describes.exact.toSound.ends_endThread t).reclaims.mem_valuesOf hv
  have hlen : w₁.locals.locals.length = w.locals.locals.length := by
    have he := hm.describes.exact.toSound.ends_endThread t
    rw [he.reclaims.locals_length]
    rfl
  have hkept : w.Keeps w₁
      (((w.locals.endThread t).2.flatMap Payload.holdings : Multiset Holding) + hand) := by
    refine ⟨⟨⟨_, hm₁⟩, h.indexed, h.cached, h.made, h.classic, ?_⟩,
    { Ages.refl w with },
      { Extends.refl w with locals_le := Nat.le_of_eq hlen.symm }⟩
    intro x
    have hb := h.balanced x
    have hcount := w.locals.count_endThread t x
    have hrefs : w₁.refsOf x = w.refsOf x := by cases x <;> rfl
    simp only [held, List.count_append] at hb
    rw [hrefs, Multiset.count_add, Multiset.coe_count]
    simp only [held, List.count_append, w₁]
    omega
  have hfreed := hkept.trans (Kept.foldl_discard hkept.kept)
  unfold World.endThread
  simp only
  split
  · exact hfreed
  · exact hfreed.trans (hfreed.kept.log rfl)

/-- A setting is replaced, and the one before is handed over. -/
theorem Kept.setCell {c : CellId} {before : Payload}
    (h : w.Kept ((v.holdings : Multiset Holding) + hand))
    (hc : w.locals.cellOf? t id = some c) (hbefore : w.locals.cell? c = some before)
    (hv : w.Admits id v) :
    w.Keeps { w with locals := { w.locals with cells := w.locals.cells.set c (some v) } }
      ((before.holdings : Multiset Holding) + hand) := by
  obtain ⟨m, hm⟩ := h.housed
  have hcell : w.locals.cells[c]? = some (some before) := Option.join_eq_some_iff.1 hbefore
  refine ⟨⟨⟨_, hm.bind (hm.describes.setCell hc v) rfl
    (hm.describes.exact.toSound.mem_valuesOf_setCell hc) hv⟩, h.indexed, h.cached, h.made,
    h.classic, ?_⟩,
    { Ages.refl w with },
    { Extends.refl w with }⟩
  intro x
  have hb := h.balanced x
  have hset := count_flatMap_set hcell cellHoldings (some v) x
  change _ + before.holdings.count x = _ + v.holdings.count x at hset
  have hrefs : World.refsOf { w with
      locals := { w.locals with cells := w.locals.cells.set c (some v) } } x = w.refsOf x := by
    cases x <;> rfl
  simp only [held, List.count_append, Multiset.count_add, Multiset.coe_count] at hb
  rw [hrefs, Multiset.count_add, Multiset.coe_count]
  simp only [held, List.count_append]
  omega

/-- The settings that are taken away are handed over. -/
theorem Kept.takeSettings (h : w.Kept hand) (hid : w.IsHome id) :
    w.Keeps (w.takeSettings id).1
      (((w.takeSettings id).2.map Holding.locale : Multiset Holding) + hand) := by
  obtain ⟨m, hm⟩ := h.housed
  obtain ⟨m', hm', hlive, -, -⟩ := hm.describes.modifyAll id fun _ _ => .setting none
  have htaken : (w.takeSettings id).2.map Holding.locale =
      (w.locals.valuesOf id).flatMap Payload.holdings := by
    simp only [World.takeSettings]
    induction w.locals.valuesOf id with
    | nil => rfl
    | cons v vs ih =>
        rw [List.flatMap_cons, ← ih]
        cases v with
        | tracked text => rfl
        | setting l => cases l <;> rfl
  rw [htaken]
  refine ⟨⟨⟨_, hm.congr hm' (fun r => rfl) (fun _ hid => hlive ▸ hid) ?_⟩, h.indexed,
    h.cached, h.made, h.classic, ?_⟩, { Ages.refl w with }, { Extends.refl w with }⟩
  · intro id' u hu
    rcases hm.describes.exact.toSound.mem_valuesOf_modifyAll hu with
      ⟨-, hu⟩ | ⟨rfl, i, v, -, rfl⟩
    · exact hm.admits hu
    · exact ⟨fun _ => ⟨none, rfl⟩, fun hid' => absurd hid hid'⟩
  · intro x
    have hb := h.balanced x
    have hcount := count_modifyAll w.locals (f := fun _ _ => .setting none)
      (hm.describes.exact.toSound.nodup_cellsOf id) (fun _ _ _ => rfl) x
    have hrefs : (w.takeSettings id).1.refsOf x = w.refsOf x := by cases x <;> rfl
    simp only [held, List.count_append] at hb
    rw [hrefs, Multiset.count_add, Multiset.coe_count]
    simp only [held, World.takeSettings, List.count_append]
    omega

end World

end Hosted

import Hosted.Proofs.Accounts.Locales
import Hosted.Proofs.References.Process
import Hosted.Proofs.Slot.Held

/-!
# Accounts of slots and values

Values are freed in bulk, when a thread local is dropped or a thread ends: the cells are
emptied first, then the values are given up one by one and counted. In between the stock is
ahead of the counters. A slot may be given back under a live thread local; that takes nothing
from the accounts, since the thread local then finds its slot gone when it is dropped.
-/

namespace Hosted

/-- The locale in a setting. -/
def Payload.locale? : Payload → Option LocaleId
  | setting l => l
  | tracked _ => none

theorem Payload.count_holdings (v : Payload) (l : LocaleId) :
    v.holdings.count (.locale l) = v.locale?.toList.count l := by
  rcases v with text | _ | l'
  · rfl
  · rfl
  · exact Holding.count_locales [l'] l

theorem Payload.holdings_eq_nil {v : Payload} (hv : v.locale? = none) : v.holdings = [] := by
  rcases v with text | _ | l
  · rfl
  · rfl
  · cases hv

theorem Payload.sum_holdings (vs : List Payload) (l : LocaleId) :
    (vs.map fun v => v.holdings.count (.locale l)).sum = (vs.filterMap locale?).count l := by
  induction vs with
  | nil => rfl
  | cons v vs ih =>
      rw [List.map_cons, List.sum_cons, ih, v.count_holdings, List.filterMap_cons]
      cases v.locale? with
      | none => simp
      | some l' =>
          simp only [Option.toList_some, List.count_cons, List.count_nil]
          omega

namespace SlotTable

theorem inUse_mark {t : SlotTable} {i seq : Nat} (hi : t.freeIndex? = some i) (hpos : seq ≠ 0) :
    (t.mark i seq).inUse = t.inUse + 1 := by
  unfold inUse mark
  split
  · next hlt =>
      have hzero : t.seqs[i] = 0 := by
        rcases freeIndex?_eq_some hi with hfree | hlen
        · exact (List.getElem?_eq_some_iff.1 hfree).2
        · omega
      rw [List.countP_set hlt, hzero]
      simp [hpos]
  · simp [List.countP_append, hpos]

end SlotTable

namespace Locals

variable {s s' : Locals Payload} {t : ThreadId} {id : LocalId} {l : Local} {v : Payload}

/-- The thread sees what it has bound. -/
theorem Binds.get?_self (hb : s.Binds t id l v s') : s'.get? t id = some v := by
  have hcell : s'.cellOf? t id = some s.cells.length := by
    unfold cellOf? Thread.binding?
    simp [hb.local?, hb.at?]
  rw [get?, hcell, Option.bind_some, hb.cell?, if_pos rfl]

end Locals

namespace World

open Locals

variable {w w' w₁ w₂ : World} {hand hand' : Multiset LocaleId} {t : ThreadId} {id : LocalId}
  {v : Payload} {r : RegistryId} {g : Registry} {l : LocaleId} {receipts receipts' : Ledger}

theorem Grounded.refs_pos_of_cell (h : w.Grounded hand) {c : CellId}
    (hc : w.locals.cell? c = some (.setting (some l))) : 0 < w.locales.refs l := by
  have hcovered := h.covered l
  have hfree := w.locals.weigh_freeCell (fun v => v.holdings.count (.locale l)) c
  rw [hc, Option.elim_some, Payload.count_holdings] at hfree
  simp only [Payload.locale?, Option.toList_some, List.count_singleton_self] at hfree
  rw [places] at hcovered
  omega

/-! ## Changes to thread locals -/

/-- Only the thread locals change. The references that they let go of are callers' now. -/
theorem Grounded.relocate (h : w.Grounded hand) (hand' : Multiset LocaleId)
    {s : Locals Payload} (hs : s.Sound)
    (hlive : ∀ {id}, w.IsHome id → (w.locals.local? id).isSome → (s.local? id).isSome)
    (hweight : ∀ l, (s.weigh fun v => v.holdings.count (.locale l)) + hand'.count l ≤
      (w.locals.weigh fun v => v.holdings.count (.locale l)) + hand.count l) :
    ({ w with locals := s } : World).Grounded hand' where
  sound := hs
  housed {r _} hg := hlive ⟨r, _, hg, rfl⟩ (h.housed hg)
  covered l := by
    have hcovered := h.covered l
    have hl := hweight l
    simp only [places] at hcovered
    change w.slotsOf l + s.weigh _ + _ ≤ w.locales.refs l
    omega

theorem Grounded.touch (h : w.Grounded hand) (t : ThreadId) :
    w.Settles 0 { w with locals := w.locals.touch t } hand :=
  .still (h.relocate hand (h.sound.touch t) (fun _ hsome => hsome) fun _ => Nat.le_refl _)
    (Nat.le_refl _) rfl rfl

/-- Values of callers are changed. -/
theorem Grounded.modifyAll (h : w.Grounded hand) (id : LocalId) {f : Nat → Payload → Payload}
    (hf : ∀ i v, (f i v).locale? = v.locale?) :
    w.Settles 0 { w with locals := w.locals.modifyAll id f } hand := by
  have hholdings : ∀ (l : LocaleId) i v, (f i v).holdings.count (.locale l) =
      v.holdings.count (.locale l) := by
    intro l i v
    rw [Payload.count_holdings, Payload.count_holdings, hf]
  have hgrounded := h.relocate hand (h.sound.modifyAll id f) (fun _ hsome => hsome) fun l =>
    Nat.le_of_eq (congrArg (· + hand.count l) (w.locals.weigh_modifyAll id (hholdings l)))
  refine .still hgrounded (Nat.le_refl _) rfl ?_
  have hvalues : (w.locals.modifyAll id f).weigh (fun _ => 1) = w.locals.weigh fun _ => 1 :=
    w.locals.weigh_modifyAll id fun _ _ => rfl
  have hcells : (w.locals.modifyAll id f).cells.length = w.locals.cells.length :=
    length_foldl_visit f _ w.locals.cells
  unfold stock
  exact congrArg₂ (Stock.mk _ _ _ _ _ · ·) hcells hvalues

/-- A setting is replaced, and the one before is handed over. -/
theorem Grounded.setCell {c : CellId} {before : Payload}
    (h : w.Grounded ((v.locale?.toList : Multiset LocaleId) + hand))
    (hbefore : w.locals.cell? c = some before) :
    w.Settles 0 { w with locals := { w.locals with cells := w.locals.cells.set c (some v) } }
      ((before.locale?.toList : Multiset LocaleId) + hand) := by
  have hcell : w.locals.cells[c]? = some (some before) := Option.join_eq_some_iff.1 hbefore
  have hweigh : ∀ weight : Payload → Nat,
      Locals.weigh { w.locals with cells := w.locals.cells.set c (some v) } weight +
        weight before = w.locals.weigh weight + weight v := fun weight =>
    sum_map_set hcell (fun cell => cell.elim 0 weight) (some v)
  have hsound : Locals.Sound { w.locals with cells := w.locals.cells.set c (some v) } := by
    refine h.sound.congr (fun _ _ => rfl) (fun _ => rfl) ?_ rfl (List.length_set ..)
      (Nat.le_refl _) h.sound.table_lt
    intro c'
    unfold Locals.cell?
    rw [List.getElem?_set]
    split
    · next heq =>
        rw [← heq, hcell, if_pos (List.getElem?_eq_some_iff.1 hcell).1]
        rfl
    · rfl
  refine .still (h.relocate _ hsound (fun _ hsome => hsome) ?_) (Nat.le_refl _) rfl ?_
  · intro l
    have hl := hweigh fun v => v.holdings.count (.locale l)
    simp only [Payload.count_holdings] at hl ⊢
    rw [Multiset.count_add, Multiset.count_add, Multiset.coe_count, Multiset.coe_count]
    omega
  · have hvalues := hweigh fun _ => 1
    have hcells : (w.locals.cells.set c (some v)).length = w.locals.cells.length :=
      List.length_set ..
    unfold stock
    exact congrArg₂ (Stock.mk _ _ _ _ _ · ·) hcells (Nat.add_right_cancel hvalues)

/-! ## Giving up values -/

theorem Grounded.discard (h : w.Grounded ((v.locale?.toList : Multiset LocaleId) + hand)) :
    w.Settles 0 (w.discard v) hand := by
  rcases v with text | _ | l
  · exact (h.of_eq (Multiset.zero_add _)).quiet (w.quiet_notify _)
  · exact (h.of_eq (Multiset.zero_add _)).refl
  · exact (h.of_eq (Multiset.singleton_add _ _)).releaseLocale

theorem coe_filterMap_cons (vs : List Payload) :
    (((v :: vs).filterMap Payload.locale? : List LocaleId) : Multiset LocaleId) + hand =
      (v.locale?.toList : Multiset LocaleId) +
        ((vs.filterMap Payload.locale? : Multiset LocaleId) + hand) := by
  rw [← Multiset.add_assoc, Multiset.coe_add, List.filterMap_cons]
  cases v.locale? <;> rfl

theorem Grounded.discards {vs : List Payload}
    (h : w.Grounded ((vs.filterMap Payload.locale? : Multiset LocaleId) + hand)) :
    w.Settles 0 (vs.foldl World.discard w) hand := by
  induction vs generalizing w with
  | nil => exact (h.of_eq (Multiset.zero_add _)).refl
  | cons v vs ih =>
      have hstep := (h.of_eq (coe_filterMap_cons vs)).discard
      exact hstep.before (ih hstep.grounded)

/-- Values are given up and counted one by one. -/
theorem Grounded.discards_counted {vs : List Payload}
    (h : w.Grounded ((vs.filterMap Payload.locale? : Multiset LocaleId) + hand)) :
    (vs.foldl (fun w v => (w.discard v).tally .valuesFreed) w).Grounded hand ∧
      w.registries.length ≤
        (vs.foldl (fun w v => (w.discard v).tally .valuesFreed) w).registries.length ∧
      ∃ n, w.Shifts (n + Pi.single .valuesFreed vs.length) n 0
        (vs.foldl (fun w v => (w.discard v).tally .valuesFreed) w) := by
  induction vs generalizing w with
  | nil =>
      refine ⟨h.of_eq (Multiset.zero_add _), Nat.le_refl _, 0, ?_⟩
      rw [List.length_nil, Pi.single_zero, add_zero]
      exact .refl w
  | cons v vs ih =>
      have hstep := (h.of_eq (coe_filterMap_cons vs)).discard
      obtain ⟨n, hn⟩ := hstep.shifts
      have htally : ((w.discard v).tally .valuesFreed).Grounded
          ((vs.filterMap Payload.locale? : Multiset LocaleId) + hand) :=
        ⟨hstep.grounded.sound, hstep.grounded.housed, hstep.grounded.covered⟩
      obtain ⟨hgrounded, hlen, n', hn'⟩ := ih htally
      refine ⟨hgrounded, Nat.le_trans hstep.registries_le hlen, n + n', ?_⟩
      have hshifts := (hn.trans ((w.discard v).shifts_tally .valuesFreed)).trans hn'
      rw [add_zero, add_zero, add_zero, add_add_add_comm, ← Pi.single_add,
        Nat.add_comm 1] at hshifts
      exact hshifts

/-- The counter catches up with the stock. -/
theorem Settles.catchUp {c : Counter} {j : Nat} (h : w₁.Settles receipts w₂ hand)
    (hahead : w.Shifts 0 (Pi.single c j) receipts' w₁)
    (hlen : w.registries.length ≤ w₁.registries.length) :
    w.Settles (receipts' + receipts) (w₂.count c j) hand := by
  obtain ⟨n, hn⟩ := h.shifts
  have hshifts := (hahead.trans hn).trans (w₂.shifts_count c j)
  rw [zero_add, add_zero, add_zero, add_comm] at hshifts
  exact ⟨⟨h.grounded.sound, h.grounded.housed, h.grounded.covered⟩,
    Nat.le_trans hlen h.registries_le, _, hshifts⟩

/-! ## Slots -/

theorem Grounded.takeSlot (h : w.Grounded hand) : w.Settles 0 w.takeSlot.1 hand := by
  unfold World.takeSlot
  rcases w.locals.allocate_cases with herr | ⟨i, hi, hok⟩
  · rw [herr]
    exact h.quiet (w.quiet_log _)
  · have hgrounded := h.relocate hand (h.sound.allocate hok).1
      (fun _ hsome => hsome) fun _ => Nat.le_refl _
    have hinUse := SlotTable.inUse_mark hi (Nat.ne_of_gt h.sound.next_pos)
    rw [hok]
    have hcounted : w.Settles 0 (World.tally { w with
        locals := { w.locals with
          table := w.locals.table.mark i w.locals.nextSeq
          nextSeq := w.locals.nextSeq + 1 } } .slotsAllocated) hand := by
      refine .counts .slotsAllocated 1 ⟨hgrounded.sound, hgrounded.housed, hgrounded.covered⟩
        (Nat.le_refl _) rfl ?_
      constructor
      case slots => exact hinUse.symm
      all_goals rfl
    exact hcounted.before (hcounted.grounded.quiet (quiet_log _ _))

/-- Any handle that an allocation could have given may be given back. -/
theorem Grounded.giveSlot (h : w.Grounded hand) {hd : SlotHandle} (hpos : hd.seq ≠ 0) :
    w.Settles 0 (w.giveSlot hd).1 hand := by
  have hgrounded := h.relocate hand (h.sound.release hd) (fun _ hsome => hsome)
    fun _ => Nat.le_refl _
  unfold World.giveSlot
  by_cases hh : hd ∈ w.locals.table.held
  · have hinUse := SlotTable.inUse_release hh
    have hreleased : (w.locals.release hd).2 = true := (SlotTable.release_snd hpos).2 hh
    simp only [hreleased, if_true]
    refine .counts .slotsReleased 1 ⟨hgrounded.sound, hgrounded.housed, hgrounded.covered⟩
      (Nat.le_refl _) rfl ?_
    constructor
    case slots => exact hinUse.symm
    all_goals rfl
  · have hsame : w.locals.release hd = (w.locals, false) := by
      rw [Locals.release, SlotTable.release_of_not_mem hpos hh]
    rw [hsame]
    exact h.refl

/-- A table of a caller's own may use the next number. -/
theorem Grounded.useSeq (h : w.Grounded hand) :
    w.Settles (Pi.single .numbered 1)
      { w with locals := { w.locals with nextSeq := w.locals.nextSeq + 1 } } hand := by
  have hsound : Locals.Sound { w.locals with nextSeq := w.locals.nextSeq + 1 } :=
    h.sound.congr (fun _ _ => rfl) (fun _ => rfl) (fun _ => rfl) rfl rfl (Nat.le_succ _)
      fun hseq => Nat.lt_succ_of_lt (h.sound.table_lt hseq)
  refine ⟨h.relocate _ hsound (fun _ hsome => hsome) fun _ => Nat.le_refl _, Nat.le_refl _, 0,
    .ahead rfl ?_⟩
  constructor <;> rfl

/-! ## Thread locals -/

theorem Grounded.not_isHome (h : w.Grounded hand) (hid : w.locals.locals.length ≤ id) :
    ¬w.IsHome id := by
  rintro ⟨r, g, hg, rfl⟩
  obtain ⟨l, hl⟩ := Option.isSome_iff_exists.1 (h.housed hg)
  exact Nat.not_lt.2 hid (local?_lt hl)

theorem coe_locale?_of_none (hv : v.locale? = none) (hand : Multiset LocaleId) :
    (v.locale?.toList : Multiset LocaleId) + hand = hand := by
  rw [hv]
  exact Multiset.zero_add _

/-- A value that holds no reference is bound through a live thread local, or freed. -/
theorem Grounded.bindValue (h : w.Grounded hand) {l : Local} (hl : w.locals.local? id = some l)
    (t : ThreadId) (hv : v.locale? = none) : w.Settles 0 (w.bindValue t id v).1 hand := by
  unfold World.bindValue
  rcases bind_cases hl t v with ⟨-, hb⟩ | ⟨-, s', hb, hbinds⟩
  · rw [hb]
    have hdiscard := (h.of_eq (coe_locale?_of_none hv hand).symm).discard
    exact hdiscard.before (hdiscard.grounded.quiet (quiet_log _ _))
  · rw [hb]
    have hgrounded := h.relocate hand (h.sound.binds hl hbinds)
      (fun {id'} _ hsome => by
        rw [hbinds.local?]
        split
        · rfl
        · exact hsome)
      fun l => by rw [hbinds.weigh, Payload.holdings_eq_nil hv, List.count_nil, Nat.add_zero]
    refine .counts .valuesBound 1 ⟨hgrounded.sound, hgrounded.housed, hgrounded.covered⟩
      (Nat.le_refl _) rfl ?_
    constructor
    case numbers => exact hbinds.nextSeq.symm
    case slots => exact (congrArg SlotTable.inUse hbinds.table).symm
    case cells => exact hbinds.cells_length.symm
    case values => exact (hbinds.weigh fun _ => 1).symm
    all_goals rfl

theorem sum_map_one (vs : List Payload) : (vs.map fun _ => 1).sum = vs.length := by simp

/-- What a thread local of a caller holds is given up with it. -/
theorem Grounded.dropLocal (h : w.Grounded hand) (t : ThreadId) (hid : ¬w.IsHome id) :
    w.Settles 0 (w.dropLocal t id) hand := by
  cases hl : w.locals.local? id with
  | none =>
      rw [dropLocal_none hl]
      exact h.refl
  | some l =>
      obtain ⟨s', hd, hdet⟩ := detach_some hl t
      unfold World.dropLocal
      rw [hd]
      have hdown := h.relocate
        (((w.locals.valuesOf id).filterMap Payload.locale? : Multiset LocaleId) + hand)
        (h.sound.detaches hl hdet)
        (fun {id'} hhome hsome => by
          rw [hdet.local?, if_neg]
          · exact hsome
          · rintro rfl
            exact hid hhome)
        fun l' => by
          have hweigh := hdet.weigh h.sound hl fun v => v.holdings.count (.locale l')
          rw [Payload.sum_holdings] at hweigh
          rw [Multiset.count_add, Multiset.coe_count]
          omega
      have hahead : w.Shifts 0 (Pi.single .valuesFreed (w.locals.valuesOf id).length) 0
          { w with locals := s' } := by
        refine .ahead rfl ?_
        have hweigh := hdet.weigh h.sound hl fun _ => 1
        rw [sum_map_one] at hweigh
        constructor
        case numbers => exact hdet.nextSeq.symm
        case slots => exact (congrArg SlotTable.inUse hdet.table).symm
        case cells => exact hdet.cells_length.symm
        case values => exact hweigh.symm
        all_goals rfl
      have hcounted := hdown.discards.catchUp hahead (Nat.le_refl _)
      exact hcounted.before
        (hcounted.grounded.giveSlot (Nat.ne_of_gt (h.sound.handle_pos hl)))

theorem Grounded.withLocal (h : w.Grounded hand) {hd : SlotHandle}
    (hr : w.locals.Reserved hd) : w.Settles 0 (w.withLocal hd) hand := by
  refine .still (h.relocate hand (h.sound.create hr) ?_ fun _ => Nat.le_refl _) (Nat.le_refl _)
    rfl rfl
  intro id _ hsome
  rw [local?_create]
  split
  · rfl
  · exact hsome

/-- A thread local that has been made is live. -/
theorem Grounded.tryNewLocal (h : w.Grounded hand) (t : ThreadId) (hv : v.locale? = none) :
    w.Settles 0 (w.tryNewLocal t v).1 hand ∧ ∀ id, (w.tryNewLocal t v).2 = .ok id →
      ((w.tryNewLocal t v).1.locals.local? id).isSome := by
  have htaken := h.takeSlot
  have hcalm := w.calm_takeSlot
  rcases w.takeSlot_cases with ⟨w₁, htake, -⟩ | ⟨w₁, hd, htake, halloc⟩
  · rw [htake] at htaken
    rw [tryNewLocal_of_takeSlot_error htake]
    refine ⟨htaken.before ?_, fun _ hok => nomatch hok⟩
    exact (htaken.grounded.of_eq (coe_locale?_of_none hv hand).symm).discard
  · rw [htake] at htaken hcalm
    rw [tryNewLocal_of_takeSlot_ok htake]
    have hmade := htaken.before (htaken.grounded.withLocal (h.sound.allocate halloc).2)
    have hnew := w₁.local?_withLocal hd
    have hbound := hmade.before (hmade.grounded.bindValue hnew t hv)
    have hcalm' := calm_bindValue (w₁.withLocal hd) t w₁.locals.locals.length
      (Payload.holdings_eq_nil hv)
    rcases bindValue_cases hnew t v with ⟨-, w₂, hb, -⟩ | ⟨-, w₂, hb, hbinds⟩
    · rw [hb] at hbound hcalm' ⊢
      refine ⟨hbound.before (hbound.grounded.dropLocal t ?_), fun _ hok => nomatch hok⟩
      have hhome : w₂.IsHome w₁.locals.locals.length ↔ w₁.IsHome w₁.locals.locals.length :=
        isHome_congr (fun r => by rw [hcalm'.registry?]; rfl) _
      rw [hhome]
      exact htaken.grounded.not_isHome (Nat.le_refl _)
    · rw [hb] at hbound ⊢
      refine ⟨hbound, ?_⟩
      rintro id ⟨⟩
      rw [hbinds.local?, if_pos rfl]
      rfl

theorem Grounded.newLocal (h : w.Grounded hand) (t : ThreadId) (hv : v.locale? = none) :
    w.Settles 0 (w.newLocal t v).1 hand ∧ ∀ id, (w.newLocal t v).2 = .ok id →
      ((w.newLocal t v).1.locals.local? id).isSome := by
  obtain ⟨hmade, hlive⟩ := h.tryNewLocal t hv
  rcases w.newLocal_cases t v with ⟨id, hnew, hok⟩ | ⟨f, hnew, -⟩
  · rw [hnew]
    refine ⟨hmade, ?_⟩
    rintro id' ⟨⟩
    exact hlive _ hok
  · rw [hnew]
    exact ⟨hmade.before (hmade.grounded.raise f), fun _ hok => nomatch hok⟩

/-- A thread that ends gives up the values that it has bound. -/
theorem Grounded.endThread (h : w.Grounded hand) (t : ThreadId) :
    w.Settles 0 (w.endThread t) hand := by
  have hends := h.sound.ends_endThread t
  have hdown := h.relocate
    (((w.locals.endThread t).2.filterMap Payload.locale? : Multiset LocaleId) + hand)
    (h.sound.ends hends)
    (fun {id} _ hsome => by
      obtain ⟨l, hl⟩ := Option.isSome_iff_exists.1 hsome
      obtain ⟨cells, hl', -⟩ := hends.reclaims.local_some (l := l) hl
      rw [hl']
      rfl)
    fun l => by
      have hweigh := w.locals.weigh_endThread (fun v => v.holdings.count (.locale l)) t
      rw [Payload.sum_holdings] at hweigh
      rw [Multiset.count_add, Multiset.coe_count]
      omega
  have hahead : w.Shifts 0 (Pi.single .valuesFreed (w.locals.endThread t).2.length) 0
      { w with locals := (w.locals.endThread t).1 } := by
    refine .ahead rfl ?_
    have hweigh := w.locals.weigh_endThread (fun _ => 1) t
    rw [sum_map_one] at hweigh
    constructor
    case numbers => exact hends.reclaims.nextSeq.symm
    case slots => exact (congrArg SlotTable.inUse hends.reclaims.table).symm
    case cells => exact hends.reclaims.cells_length.symm
    case values => exact hweigh.symm
    all_goals rfl
  obtain ⟨hgrounded, hlen, n, hn⟩ := hdown.discards_counted
  have hshifts := hahead.trans hn
  rw [zero_add, zero_add, add_comm n] at hshifts
  have hfreed : w.Settles 0 _ hand := ⟨hgrounded, hlen, _, hshifts⟩
  unfold World.endThread
  simp only
  split
  · exact hfreed
  · exact hfreed.before (hgrounded.quiet (quiet_log _ _))

end World

end Hosted

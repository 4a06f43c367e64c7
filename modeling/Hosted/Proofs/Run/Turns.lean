import Hosted.Proofs.Run.Fronts

/-!
# Turns

A `Turn` is a call like a `Step`, but nothing is asked of its caller: it may name any locale
and any facet, give back a slot by any handle, and bind a value over another. The fronts of
registries do not depend on that. A world stays `Poised` from turn to turn: each teardown is
queued once at most.
-/

namespace Hosted

variable {r : RegistryId}

theorem World.count_toTearDown (table : ExitTable Handler) (r : RegistryId) :
    (toTearDown table).count r = table.handlers.count (.teardown r) := by
  unfold toTearDown
  induction table.handlers with
  | nil => rfl
  | cons h handlers ih =>
      cases h with
      | report tag actions => simp [ih]
      | teardown r' => simp [List.count_cons, ih]

theorem Front.toTearDown_queue (f : Front) (r : RegistryId) (table : ExitTable Handler) :
    World.toTearDown (f.queue r table) =
      World.toTearDown table ++ if f.queued || table.ran then [] else [r] := by
  unfold Front.queue
  split
  · exact (List.append_nil _).symm
  · exact List.filterMap_append

namespace World

/-- One call, whatever its caller holds. What is merely counted or noticed reports no
teardown as refused. -/
inductive Turn : World → Event → World → Prop where
  | call {w hand e w' hand'} : Step w hand e w' hand' →
      (e = .elsewhere → w.Aside w' → w.Hushed w') → Turn w e w'
  | gave {w} (h) : Turn w .elsewhere (w.giveSlot h).1
  | bound {w} (t id text) : Turn w .elsewhere (w.bindValue t id (.tracked text)).1

/-- What a turn does to the teardowns that are queued, and which of them it reports as
refused. -/
structure Queues (w : World) (e : Event) (w' : World) : Prop where
  bare : w'.Bare
  nodup : ∀ {t}, (toTearDown (w.exitTable t)).Nodup → (toTearDown (w'.exitTable t)).Nodup
  started : ∀ {t}, (w.exitTable t).ran = false → (w'.exitTable t).ran = true →
    ∀ r ∈ toTearDown (w.exitTable t), e.tearsDown r = true ∨ e.givesOut r = true
  warns : ∀ {r f}, w.front? r = some f → e.initialises r = true →
    w.Warns (refusals f.queued (w.exitTable f.exits).ran) w'
  hushed : (∀ r, e.initialises r = false) → w.Hushed w'

/-- Queued teardowns are where they belong, and each is there once at most. -/
structure Poised (w : World) : Prop where
  bare : w.Bare
  orderly : w.Orderly
  nodup : ∀ t, (toTearDown (w.exitTable t)).Nodup

variable {w w' : World} {e : Event} {f f' : Front}

/-! ## The kinds of turns -/

theorem Mild.queues (h : w.Mild w') (hb : w.Bare) (hquiet : ∀ r, e.initialises r = false) :
    w.Queues e w' where
  bare := h.bare hb
  nodup hnodup := by rwa [h.queued]
  started hran hran' := by
    rw [h.ran, hran] at hran'
    cases hran'
  warns _ hinit := by
    rw [hquiet] at hinit
    cases hinit
  hushed _ := h.hushed

theorem Publishes.queues (h : w.Publishes r f f' w') (hp : w.Poised)
    (hf : w.front? r = some f) (hinit : ∀ r', e.initialises r' = decide (r = r')) :
    w.Queues e w' where
  bare := h.warns.bare hp.bare
  nodup {t} hnodup := by
    rw [h.exitTable]
    split
    · rw [Front.toTearDown_queue]
      split
      · rwa [List.append_nil]
      · next hfree =>
          refine List.nodup_append.2 ⟨hnodup, List.nodup_singleton r, ?_⟩
          rintro r' hmem _ hmem' rfl
          rw [List.mem_singleton] at hmem'
          subst hmem'
          -- what is in the table is taken for queued by its registry
          obtain ⟨f₀, hf₀, -, hqueued⟩ := hp.orderly.own (mem_toTearDown_iff.1 hmem)
          rw [hf, Option.some.injEq] at hf₀
          subst hf₀
          rw [hqueued, Bool.true_or] at hfree
          exact hfree rfl
    · exact hnodup
  started hran hran' := by
    rw [h.ran_eq, hran] at hran'
    cases hran'
  warns {r' f₀} hf₀ hinit' := by
    obtain rfl : r = r' := of_decide_eq_true ((hinit r').symm.trans hinit')
    rw [hf, Option.some.injEq] at hf₀
    subst hf₀
    exact h.warns
  hushed hquiet := by
    have hnot := hquiet r
    rw [hinit, decide_eq_true rfl] at hnot
    cases hnot

theorem Poised.queues_runTable (hp : w.Poised) (t : TableId) (n : Nat) :
    w.Queues (.tableRun t (toTearDown (w.exitTable t)) n) (w.runTable t).1 := by
  cases hran : (w.exitTable t).ran with
  | true =>
      rw [runTable_of_ran hran]
      exact (Mild.refl w).queues hp.bare fun _ => rfl
  | false =>
      rcases Nat.lt_or_ge t w.exits.length with ht | ht
      · have hmild := mild_runTable ht hran
        have htable := exitTable_setExitTable w ht { handlers := [], ran := true }
        refine ⟨hmild.bare hp.bare, ?_, ?_, fun _ hinit => (nomatch hinit), fun _ => hmild.hushed⟩
        · intro t' hnodup
          rw [hmild.queued, htable]
          split
          · exact List.nodup_nil
          · exact hnodup
        · intro t' hran' hran'' r hmem
          rw [hmild.ran, htable] at hran''
          split at hran''
          · next heq => exact Or.inl (decide_eq_true (heq ▸ hmem))
          · rw [hran'] at hran''
            cases hran''
      · exact (mild_runTable_of_ge ht).queues hp.bare fun _ => rfl

theorem Poised.queues_start (hp : w.Poised) {t : TableId} (ht : t < w.exits.length) :
    w.Queues (.opened t (toTearDown (w.exitTable t)))
      (w.setExitTable t { handlers := [], ran := true }) := by
  have htable := exitTable_setExitTable w ht { handlers := [], ran := true }
  refine ⟨hp.bare, ?_, ?_, fun _ hinit => (nomatch hinit), fun _ => .of_eq rfl⟩
  · intro t' hnodup
    rw [htable]
    split
    · exact List.nodup_nil
    · exact hnodup
  · intro t' hran hran' r hmem
    rw [htable] at hran'
    split at hran'
    · next heq => exact Or.inr (decide_eq_true (heq ▸ hmem))
    · rw [hran] at hran'
      cases hran'

/-! ## Turns -/

/-- What becomes of queued teardowns, kind by kind. -/
theorem Kind.queues (h : w.Kind e w') (hp : w.Poised)
    (haside : e = .elsewhere → w.Aside w' → w.Hushed w') : w.Queues e w' := by
  cases h with
  | idle h hquiet => exact h.mild.queues hp.bare fun r => (hquiet r).1
  | aside h he =>
      have hhushed := haside he h
      subst he
      exact (Mild.of_aside h hhushed).queues hp.bare fun _ => rfl
  | adds h _ hquiet => exact h.mild.queues hp.bare fun r => (hquiet r).1
  | publishes h hf _ _ _ hinit _ => exact h.queues hp hf hinit
  | tearsDown _ h _ hinit => exact h.queues hp.bare hinit
  | tables h hquiet => exact h.mild.queues hp.bare fun r => (hquiet r).1
  | opens ht he hw =>
      subst he hw
      exact hp.queues_start ht
  | runs he hw =>
      subst he hw
      exact hp.queues_runTable _ _

theorem Turn.kind (h : Turn w e w') (hp : w.Poised) : w.Kind e w' := by
  cases h with
  | call hstep _ => exact hstep.kind hp.bare hp.orderly
  | gave h => exact .idle (w.idle_giveSlot h) fun _ => ⟨rfl, rfl⟩
  | bound t id text => exact .idle (w.idle_bindValue t id _) fun _ => ⟨rfl, rfl⟩

theorem Turn.moves (h : Turn w e w') (hp : w.Poised) : w.Moves e w' := (h.kind hp).moves hp.orderly

theorem Turn.queues (h : Turn w e w') (hp : w.Poised) : w.Queues e w' := by
  refine (h.kind hp).queues hp ?_
  cases h with
  | call _ haside => exact haside
  | gave h => exact fun _ _ => (w.idle_giveSlot h).hushed
  | bound t id text => exact fun _ _ => (w.idle_bindValue t id _).hushed

/-! ## What turns keep -/

theorem poised_fresh (settings : Settings) : (fresh settings).Poised where
  bare o ho := nomatch ho
  orderly := (tells_fresh settings).orderly
  nodup t := by
    have hnil : toTearDown ((fresh settings).exitTable t) = [] := by
      refine List.eq_nil_iff_forall_not_mem.2 fun r hmem => ?_
      obtain ⟨f, hf, -⟩ := (tells_fresh settings).orderly.own (mem_toTearDown_iff.1 hmem)
      cases hf
    rw [hnil]
    exact List.nodup_nil

theorem Turn.poised (h : Turn w e w') (hp : w.Poised) : w'.Poised :=
  ⟨(h.queues hp).bare, (h.moves hp).orderly, fun t => (h.queues hp).nodup (hp.nodup t)⟩

end World

end Hosted

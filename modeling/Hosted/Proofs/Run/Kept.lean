import Hosted.Proofs.References.Process
import Hosted.Proofs.Run.Step

/-!
# References along a run

Every step keeps the accounts, so a run from the beginning of a process accounts for all
references wherever it ends.
-/

namespace Hosted.World

variable {w w' : World} {hand hand' : Multiset Holding} {e : Event} {es : List Event}

/-- The accounts are kept by every step. -/
theorem Step.keeps (hstep : Step w hand e w' hand') (h : w.Kept hand) :
    w.Keeps w' hand' := by
  cases hstep with
  | registered t exits _ => exact h.addRegistry t exits
  | owned t => exact h.ownRegistry t
  | classic hr =>
      obtain ⟨g, hg⟩ := Option.isSome_iff_exists.1 hr
      exact h.classicLocale hg
  | global hr =>
      obtain ⟨g, hg⟩ := Option.isSome_iff_exists.1 hr
      exact h.globalLocale hg
  | global? hr =>
      obtain ⟨g, hg⟩ := Option.isSome_iff_exists.1 hr
      exact h.globalLocale? hg
  | empty hr =>
      obtain ⟨g, hg⟩ := Option.isSome_iff_exists.1 hr
      exact h.emptyLocale hg
  | ensured hr =>
      obtain ⟨g, hg⟩ := Option.isSome_iff_exists.1 hr
      exact h.ensureLocales hg
  | replaced hr hl =>
      obtain ⟨g, hg⟩ := Option.isSome_iff_exists.1 hr
      exact h.replaceGlobal hg hl
  | ofThread t hg => exact h.threadLocale hg t
  | setThread t l hr =>
      obtain ⟨g, hg⟩ := Option.isSome_iff_exists.1 hr
      exact h.setThreadLocale hg t
  | found kind hr _ =>
      obtain ⟨g, hg⟩ := Option.isSome_iff_exists.1 hr
      exact h.findFacet hg _ kind
  | used kind hr _ =>
      obtain ⟨g, hg⟩ := Option.isSome_iff_exists.1 hr
      exact h.useFacet hg _ kind
  | recorded kind hr =>
      obtain ⟨g, hg⟩ := Option.isSome_iff_exists.1 hr
      exact h.recordFacet hg kind
  | releasedRecorded hr =>
      obtain ⟨g, hg⟩ := Option.isSome_iff_exists.1 hr
      exact h.releaseRecorded hg
  | toreDown _ => exact h.teardown? _
  | tableMade => exact w.calm_addExitTable.keeps_of_locals_eq h rfl
  | handlerAdded t tag actions => exact h.register t _
  | opened t _ _ => exact h.setExitTable t _
  | tableRun t => exact h.runTable t
  | retainedLocale hl => exact h.retainLocale (h.refs_pos_of_mem hl)
  | releasedLocale => exact h.releaseLocale
  | retainedFacet hf => exact h.retainFacet (h.refs_pos_of_mem hf)
  | releasedFacet => exact h.releaseFacet
  | madeFacet body => exact h.addFacet body
  | derived kind hl => exact h.withFacet hl kind
  | lookedUp l kind => exact h.lookUp l kind
  | indexed key =>
      have hcalm : w.Calm { w with indices := (w.indices.assign key).1 } :=
        { Calm.refl w with
          indices := FacetIndices.find?_assign
          indexed := fun hi => hi.assign key }
      exact hcalm.keeps_of_locals_eq h rfl
  | forgot identity =>
      have hcalm : w.Calm { w with indices := w.indices.forget (.identity identity) } :=
        { Calm.refl w with
          indices := fun hi => by
            rw [FacetIndices.find?_forget]
            exact hi
          indexed := fun hi => hi.forget _ }
      exact hcalm.keeps_of_locals_eq h rfl
  | took => exact h.takeSlot
  | gave hd hfree => exact h.giveSlot fun {id l} => hfree id l
  | numbered =>
      obtain ⟨m, hm⟩ := h.housed
      have hcalm : w.Calm
          { w with locals := { w.locals with nextSeq := w.locals.nextSeq + 1 } } :=
        { Calm.refl w with }
      exact hcalm.keeps h
        (hm.congr hm.describes.useSeq (fun r => rfl) (fun _ hlive => hlive) hm.admits)
  | madeLocal t text => exact h.tryNewLocal t text
  | gotLocal t id => exact h.getLocal t id
  | bound t id text hid =>
      exact h.bindValue ⟨fun hid' => absurd hid' hid, fun _ => ⟨text, rfl⟩⟩ rfl
        fun hid' => absurd hid' hid
  | changed id hid hf => exact h.modifyAll hid hf
  | droppedLocal t id hid => exact h.dropLocal t hid
  | threadEnded t => exact h.endThread t
  | started =>
      have hcalm : w.Calm { w with started := true } := { Calm.refl w with }
      exact hcalm.keeps_of_locals_eq h rfl
  | aside ha => exact h.aside ha

theorem Run.keeps (hrun : Run w hand es w' hand') (h : w.Kept hand) : w.Keeps w' hand' := by
  induction hrun with
  | nil => exact h.refl
  | cons hstep _ ih => exact (hstep.keeps h).trans (ih (hstep.keeps h).kept)

/-- Wherever a process gets, all references are accounted for. -/
theorem Run.kept {settings : Settings} (h : Run (fresh settings) 0 es w hand) : w.Kept hand :=
  (h.keeps (kept_fresh settings)).kept

end Hosted.World

import Hosted.Proofs.Accounts.Registries
import Mathlib.Algebra.BigOperators.Group.Multiset.Basic

/-!
# The balance of the counters

A `Call` is one operation of the environment, made by whichever thread, with what callers
have before and after it and the receipts that they get. Callers may give a slot back under
a live thread local, which the calls of `World.Step` may not. Any number of calls one after
the other keeps the accounts: the counters say how the stock has changed.

Facets that are recorded in a list of a caller's own are released uncounted when the list
is dropped, since only a teardown counts. The ledger notes them as lost.
-/

namespace Hosted

/-- What callers have: references to locales, and lists of recorded facets of their own. -/
structure Callers where
  locales : Multiset LocaleId := 0
  lists : Multiset (List FacetId) := 0

namespace Callers

/-- One more reference to a locale. -/
def take (a : Callers) (l : LocaleId) : Callers := { a with locales := l ::ₘ a.locales }

/-- One more reference, if there is a locale. -/
def take? (a : Callers) (l : Option LocaleId) : Callers :=
  { a with locales := (l.toList : Multiset LocaleId) + a.locales }

/-- One more list of recorded facets. -/
def keep (a : Callers) (fs : List FacetId) : Callers := { a with lists := fs ::ₘ a.lists }

/-- The number of facets that are recorded in lists of callers. -/
def listed (a : Callers) : Nat := (a.lists.map List.length).sum

/-- The stock of a process together with what callers have. -/
def stock (a : Callers) (w : World) : Stock where
  built := w.locales.objects.length
  live := w.locales.live.length
  entries := (w.registries.map (·.entries.length)).sum + a.listed
  numbers := w.locals.nextSeq
  slots := w.locals.table.inUse
  cells := w.locals.cells.length
  values := w.locals.boundTotal

theorem listed_keep (a : Callers) (fs : List FacetId) :
    (a.keep fs).listed = a.listed + fs.length := by
  rw [listed, keep, Multiset.map_cons, Multiset.sum_cons, Nat.add_comm]
  rfl

end Callers

/-- A stock with more facets that are recorded. -/
def Stock.withListed (s : Stock) (listed : Nat) : Stock := { s with entries := s.entries + listed }

theorem Accounts.withListed {n : Counter → Nat} {t : Ledger} {s s' : Stock}
    (h : Accounts n t s s') (listed : Nat) :
    Accounts n t (s.withListed listed) (s'.withListed listed) where
  built := h.built
  live := h.live
  recorded := h.recorded
  entries := by
    have hentries := h.entries
    simp only [Stock.withListed]
    omega
  created := h.created
  numbers := h.numbers
  slots := h.slots
  cells := h.cells
  values := h.values
  ran := h.ran

theorem Accounts.eq {s s' : Stock} (h : Accounts 0 0 s s') : s = s' := by
  obtain ⟨h₁, h₂, -, h₄, -, h₆, h₇, h₈, h₉, -⟩ := h
  cases s
  cases s'
  simp only [Pi.zero_apply, Nat.add_zero] at h₁ h₂ h₄ h₆ h₇ h₈ h₉
  subst h₁ h₂ h₄ h₆ h₇ h₈ h₉
  rfl

namespace World

/-- One call. -/
inductive Call : World → Callers → Ledger → World → Callers → Prop where
  -- registries
  | registered {w a} (t exits) : Call w a 0 (w.addRegistry t exits).1 a
  | owned {w a} (t) : Call w a 0 (w.ownRegistry t).1 a
  | classic {w a r} : (w.registry? r).isSome →
      Call w a 0 (w.classicLocale r).1 (a.take (w.classicLocale r).2)
  | global {w a r} : (w.registry? r).isSome →
      Call w a 0 (w.globalLocale r).1 (a.take (w.globalLocale r).2)
  | global? {w a r} : (w.registry? r).isSome →
      Call w a 0 (w.globalLocale? r).1 (a.take? (w.globalLocale? r).2)
  | empty {w a r} : (w.registry? r).isSome →
      Call w a 0 (w.emptyLocale r).1 (a.take (w.emptyLocale r).2)
  | ensured {w a r} : (w.registry? r).isSome → Call w a 0 (w.ensureLocales r) a
  | replaced {w a r l} : (w.registry? r).isSome → l ∈ a.locales →
      Call w a 0 (w.replaceGlobal r l).1 (a.take (w.replaceGlobal r l).2)
  | ofThread {w a r} (t) : (w.registry? r).isSome →
      Call w a 0 (w.threadLocale r t).1 (a.take (w.threadLocale r t).2)
  | setThread {w r} {a : Callers} (t l) : (w.registry? r).isSome →
      Call w (a.take? l) 0 (w.setThreadLocale r t l).1
        (a.take? (w.setThreadLocale r t l).2.toOption.join)
  | found {w a r} (l kind) : (w.registry? r).isSome → Call w a 0 (w.findFacet r l kind).1 a
  | used {w a r} (l kind) : (w.registry? r).isSome →
      Call w a (Pi.single .recorded (w.createdBy r l kind) +
        Pi.single .created (w.createdBy r l kind)) (w.useFacet r l kind).1 a
  | recorded {w a r} (kind f) : (w.registry? r).isSome →
      Call w a (Pi.single .recorded 1) (w.recordFacet r kind f) a
  | releasedRecorded {w a r} : (w.registry? r).isSome → Call w a 0 (w.releaseRecorded r).1 a
  | toreDown {w a} (r) : Call w a 0 (w.teardown r).1 a
  -- exit tables
  | tableMade {w a} : Call w a 0 w.addExitTable.1 a
  | handlerAdded {w a} (t handler) : Call w a 0 (w.register t handler).1 a
  | tableRun {w a} (t) :
      Call w a (Pi.single .ran ((w.runTable t).2 + (w.nestedAnswers (w.runTable t).1).sum))
        (w.runTable t).1 a
  -- locales and facets
  | retainedLocale {w l} {a : Callers} : l ∈ a.locales → Call w a 0 (w.retainLocale l) (a.take l)
  | releasedLocale {w} {a : Callers} (l) : Call w (a.take l) 0 (w.releaseLocale l) a
  | derived {w a} (l kind f) :
      Call w a 0 (w.withFacet l kind f).1 (a.take (w.withFacet l kind f).2)
  | madeFacet {w a} (body) : Call w a 0 (w.addFacet body).1 a
  | retainedFacet {w a} (f) : Call w a 0 (w.retainFacet f) a
  | releasedFacet {w a} (f) : Call w a 0 (w.releaseFacet f) a
  | indexed {w a} (key) : Call w a 0 { w with indices := (w.indices.assign key).1 } a
  | forgot {w a} (key) : Call w a 0 { w with indices := w.indices.forget key } a
  -- lists of recorded facets
  | listMade {w} {a : Callers} : Call w a 0 w (a.keep [])
  | listRecorded {w} {a : Callers} (fs kind f) :
      Call w (a.keep fs) (Pi.single .recorded 1)
        ((w.recordedIndex kind).1.reportRecorded (w.recordedIndex kind).2 (fs.length + 1))
        (a.keep (fs ++ [f]))
  | listTornDown {w} {a : Callers} (fs) : Call w (a.keep fs) 0 (w.releaseEntries fs) (a.keep [])
  | listDropped {w} {a : Callers} (fs) :
      Call w (a.keep fs) (Pi.single .lost fs.length) (w.releaseFacets fs) a
  -- slots and thread locals of callers
  | took {w a} : Call w a 0 w.takeSlot.1 a
  | gave {w a} (h) : h.seq ≠ 0 → Call w a 0 (w.giveSlot h).1 a
  | numbered {w a} :
      Call w a (Pi.single .numbered 1)
        { w with locals := { w.locals with nextSeq := w.locals.nextSeq + 1 } } a
  | madeLocal {w a} (t text) : Call w a 0 (w.tryNewLocal t (.tracked text)).1 a
  | gotLocal {w a} (t id) : Call w a 0 (w.getLocal t id).1 a
  | bound {w a} (t id text) : (w.locals.local? id).isSome →
      Call w a 0 (w.bindValue t id (.tracked text)).1 a
  | changed {w a} (id) {f : Nat → Payload → Payload} : (∀ i v, (f i v).locale? = v.locale?) →
      Call w a 0 { w with locals := w.locals.modifyAll id f } a
  | droppedLocal {w a} (t id) : ¬w.IsHome id → Call w a 0 (w.dropLocal t id) a
  | threadEnded {w a} (t) : Call w a 0 (w.endThread t) a
  -- the rest
  | started {w a} : Call w a 0 { w with started := true } a
  | raised {w a} (f) : Call w a 0 (w.raise f) a
  | noticed {w a} (notices) : Call w a 0 { w with notices } a

/-- Calls one after the other. -/
inductive Calls : World → Callers → Ledger → World → Callers → Prop where
  | nil {w a} : Calls w a 0 w a
  | cons {w w₁ w' a a₁ a' t t'} : Call w a t w₁ a₁ → Calls w₁ a₁ t' w' a' →
      Calls w a (t + t') w' a'

variable {w w₁ w' : World} {a a₁ a' : Callers} {t t₀ t' : Ledger} {fs : List FacetId}

/-! ## One call -/

/-- Calls that leave the process grounded, and whose counters say how the stock of the process
and of callers has changed. -/
structure Balances (w : World) (a : Callers) (t : Ledger) (w' : World) (a' : Callers) :
    Prop where
  grounded : w'.Grounded a'.locales
  counts : ∃ n : Counter → Nat, (∀ c, w'.counters.get c = w.counters.get c + (n c).toUInt64) ∧
    Accounts n t (a.stock w) (a'.stock w')

theorem Grounded.stock_eq (h : w.Grounded a.locales) :
    a.stock w = w.stock.withListed a.listed := by
  unfold Callers.stock
  rw [h.sound.toCellsOwned.boundTotal_eq]
  rfl

theorem Settles.balances (hw : w.Grounded a.locales) (h : w.Settles t w' a'.locales)
    (hlisted : a'.listed = a.listed) : w.Balances a t w' a' := by
  obtain ⟨n, hn⟩ := h.shifts
  refine ⟨h.grounded, n, hn.counted, ?_⟩
  rw [hw.stock_eq, h.grounded.stock_eq, hlisted]
  exact hn.balanced.withListed _

theorem Quiet.balances (hq : w.Quiet w') (h : w.Grounded a.locales) : w.Balances a 0 w' a :=
  (h.quiet hq).balances h rfl

/-- What is asked of a registry that there is. -/
theorem Grounded.balances_of_registry {r : RegistryId} (h : w.Grounded a.locales)
    (hr : (w.registry? r).isSome) (hlisted : a'.listed = a.listed)
    (hsettles : ∀ {g}, w.registry? r = some g → w.Settles t w' a'.locales) :
    w.Balances a t w' a' := by
  obtain ⟨g, hg⟩ := Option.isSome_iff_exists.1 hr
  exact (hsettles hg).balances h hlisted

/-- What is done to a list of a caller's own leaves the stock of the process as it is. -/
theorem Grounded.balances_of_list {n : Counter → Nat} (hw : w.Grounded a.locales)
    (hw' : w'.Grounded a'.locales) (hshifts : w.Shifts n 0 0 w')
    (haccounts : ∀ s : Stock, Accounts n t (s.withListed a.listed) (s.withListed a'.listed)) :
    w.Balances a t w' a' := by
  refine ⟨hw', n, hshifts.counted, ?_⟩
  rw [hw.stock_eq, hw'.stock_eq, ← hshifts.balanced.eq]
  exact haccounts _

theorem Grounded.listRecorded (h : w.Grounded a.locales) (fs : List FacetId)
    (kind : Option FacetKind) (f : FacetId) :
    w.Balances (a.keep fs) (Pi.single .recorded 1)
      ((w.recordedIndex kind).1.reportRecorded (w.recordedIndex kind).2 (fs.length + 1))
      (a.keep (fs ++ [f])) := by
  have hindex := w.quiet_recordedIndex kind
  have h₁ := (h.quiet hindex).grounded
  refine Grounded.balances_of_list (n := Pi.single .facetsRegistered 1) h
    ⟨h₁.sound, h₁.housed, h₁.covered⟩
    ⟨fun c => hindex.counters ▸ counted_single .facetsRegistered 1 c, ?_⟩ fun s => ?_
  · exact hindex.stock ▸ Accounts.refl _
  · rw [Callers.listed_keep, Callers.listed_keep, List.length_append, ← Nat.add_assoc]
    constructor <;> rfl

theorem Grounded.listTornDown (h : w.Grounded a.locales) (fs : List FacetId) :
    w.Balances (a.keep fs) 0 (w.releaseEntries fs) (a.keep []) := by
  have hrelease := w.quiet_releaseFacets fs.reverse
  have h₁ := (h.quiet hrelease).grounded
  refine Grounded.balances_of_list (n := Pi.single .facetsReleased fs.length) h
    ⟨h₁.sound, h₁.housed, h₁.covered⟩
    ⟨fun c => hrelease.counters ▸ counted_single .facetsReleased fs.length c, ?_⟩ fun s => ?_
  · exact hrelease.stock ▸ Accounts.refl _
  · rw [Callers.listed_keep, Callers.listed_keep, List.length_nil, Nat.add_zero]
    constructor
    case entries => exact (Nat.add_assoc ..).symm
    all_goals rfl

theorem Grounded.listDropped (h : w.Grounded a.locales) (fs : List FacetId) :
    w.Balances (a.keep fs) (Pi.single .lost fs.length) (w.releaseFacets fs) a := by
  have hrelease := h.quiet (w.quiet_releaseFacets fs)
  refine Grounded.balances_of_list (n := 0) h hrelease.grounded
    (.of_eq (w.quiet_releaseFacets fs).counters (w.quiet_releaseFacets fs).stock) fun s => ?_
  rw [Callers.listed_keep]
  constructor
  case entries => exact (Nat.add_assoc ..).symm
  all_goals rfl

/-- Each call keeps the accounts. -/
theorem Call.balances (hc : w.Call a t w' a') (h : w.Grounded a.locales) :
    w.Balances a t w' a' := by
  cases hc with
  | registered thread exits => exact (h.addRegistry thread exits).balances h rfl
  | owned thread => exact (h.ownRegistry thread).balances h rfl
  | classic hr => exact h.balances_of_registry hr rfl fun hg => h.classicLocale hg
  | global hr => exact h.balances_of_registry hr rfl fun hg => h.globalLocale hg
  | global? hr => exact h.balances_of_registry hr rfl fun hg => h.globalLocale? hg
  | empty hr => exact h.balances_of_registry hr rfl fun hg => h.emptyLocale hg
  | ensured hr => exact h.balances_of_registry hr rfl fun hg => h.ensureLocales hg
  | replaced hr hl => exact h.balances_of_registry hr rfl fun hg => h.replaceGlobal hg hl
  | ofThread thread hr => exact h.balances_of_registry hr rfl fun hg => h.threadLocale hg thread
  | setThread thread l hr =>
      exact h.balances_of_registry hr rfl fun hg => Grounded.setThreadLocale h hg thread
  | found l kind hr => exact h.balances_of_registry hr rfl fun hg => h.findFacet hg l kind
  | used l kind hr => exact h.balances_of_registry hr rfl fun hg => h.useFacet hg l kind
  | recorded kind f hr => exact h.balances_of_registry hr rfl fun hg => h.recordFacet hg kind f
  | releasedRecorded hr => exact h.balances_of_registry hr rfl fun hg => h.releaseRecorded hg
  | toreDown r => exact (h.teardown r).balances h rfl
  | tableMade => exact Quiet.balances ⟨rfl, rfl, rfl, rfl⟩ h
  | handlerAdded table handler => exact (w.quiet_register table handler).balances h
  | tableRun table =>
      rw [sum_nestedAnswers_runTable]
      exact (h.runTable table).balances h rfl
  | retainedLocale hl => exact (h.retainLocale (h.refs_pos hl)).balances h rfl
  | releasedLocale l => exact (Grounded.releaseLocale h).balances h rfl
  | derived l kind f => exact (h.withFacet l kind f).balances h rfl
  | madeFacet body => exact Quiet.balances ⟨rfl, rfl, rfl, rfl⟩ h
  | retainedFacet f => exact (w.quiet_retainFacet f).balances h
  | releasedFacet f => exact (w.quiet_releaseFacet f).balances h
  | indexed key => exact Quiet.balances ⟨rfl, rfl, rfl, rfl⟩ h
  | forgot key => exact Quiet.balances ⟨rfl, rfl, rfl, rfl⟩ h
  | listMade => exact h.refl.balances h (a.listed_keep [])
  | @listRecorded b fs kind f => exact Grounded.listRecorded (a := b) h fs kind f
  | @listTornDown b fs => exact Grounded.listTornDown (a := b) h fs
  | listDropped fs => exact Grounded.listDropped (a := a') h fs
  | took => exact h.takeSlot.balances h rfl
  | gave handle hpos => exact (h.giveSlot hpos).balances h rfl
  | numbered => exact h.useSeq.balances h rfl
  | madeLocal thread text =>
      exact (h.tryNewLocal thread (v := .tracked text) rfl).1.balances h rfl
  | gotLocal thread id => exact (h.touch thread).balances h rfl
  | bound thread id text hid =>
      obtain ⟨l, hl⟩ := Option.isSome_iff_exists.1 hid
      exact (h.bindValue hl thread (v := .tracked text) rfl).balances h rfl
  | changed id hf => exact (h.modifyAll id hf).balances h rfl
  | droppedLocal thread id hid => exact (h.dropLocal thread hid).balances h rfl
  | threadEnded thread => exact (h.endThread thread).balances h rfl
  | started => exact Quiet.balances ⟨rfl, rfl, rfl, rfl⟩ h
  | raised f => exact (h.raise f).balances h rfl
  | noticed notices => exact Quiet.balances ⟨rfl, rfl, rfl, rfl⟩ h

/-! ## Any number of calls -/

theorem grounded_fresh (settings : Settings) : (fresh settings).Grounded 0 where
  sound := (BindingMap.describes_fresh settings).exact.toSound
  housed hg := by
    simp [World.registry?, fresh] at hg
  covered l := Nat.zero_le _

/-- However many calls there are, the counters tell how the stock has changed. -/
theorem Calls.balances (hc : w.Calls a t w' a') (h : w.Grounded a.locales) :
    w.Balances a t w' a' := by
  induction hc with
  | nil => exact h.refl.balances h rfl
  | cons hcall _ ih =>
      have hstep := hcall.balances h
      have hrest := ih hstep.grounded
      obtain ⟨n, hcounted, haccounts⟩ := hstep.counts
      obtain ⟨n', hcounted', haccounts'⟩ := hrest.counts
      refine ⟨hrest.grounded, n + n', fun c => ?_, haccounts.trans haccounts'⟩
      rw [hcounted', hcounted, UInt64.add_assoc, Pi.add_apply]
      exact congrArg _ (UInt64.ofNat_add _ _).symm

/-- From any point in the life of a process to any later one, whatever is called on
whichever threads in between, each counter goes up by a number, and these numbers are what
brings the stock from the one point to the other. Only what callers drop with lists of their
own is missing from the facets that were released. -/
theorem Calls.counters_account_for_stock {settings : Settings}
    (h₀ : (fresh settings).Calls {} t₀ w a) (h : w.Calls a t w' a') :
    ∃ n : Counter → Nat,
      (∀ c, w'.counters.get c = w.counters.get c + (n c).toUInt64) ∧
      (∀ c, (w.counters.get c).toNat + n c < 2 ^ 64 →
        (w'.counters.get c).toNat = (w.counters.get c).toNat + n c) ∧
      Accounts n t (a.stock w) (a'.stock w') := by
  have hbegin := h₀.balances (grounded_fresh settings)
  obtain ⟨n, hcounted, haccounts⟩ := (h.balances hbegin.grounded).counts
  refine ⟨n, hcounted, fun c hlt => ?_, haccounts⟩
  have hsmall : n c % 2 ^ 64 = n c := Nat.mod_eq_of_lt (by omega)
  rw [hcounted, UInt64.toNat_add, Nat.toUInt64, UInt64.toNat_ofNat', hsmall]
  exact Nat.mod_eq_of_lt hlt

/-- A thread makes a registry, takes its classic locale and has a facet created for it. Then
the exit table tears the registry down, the locale is given up and the thread ends. -/
theorem Calls.counters_account_for_stock_of_cycle :
    let w₀ := ((fresh {}).addRegistry 1 0).1
    let w₁ := (w₀.classicLocale 0).1
    let w₂ := (w₁.useFacet 0 0 .probe0).1
    let w₃ := (w₂.runTable 0).1
    let w₄ := (w₃.releaseLocale 0).endThread 1
    let t : Ledger := Pi.single .recorded 1 + Pi.single .created 1 + Pi.single .ran 1
    ((fresh {}).Calls {} 0 w₀ {} ∧ w₀.Calls {} t w₄ {}) ∧
      Counter.all.map w₀.counters.get = [0, 0, 0, 0, 0, 1, 0, 1, 0, 0, 0] ∧
      Counter.all.map w₄.counters.get = [1, 1, 1, 1, 1, 1, 0, 1, 1, 1, 0] ∧
      ∃ n : Counter → Nat,
        (∀ c, w₄.counters.get c = w₀.counters.get c + (n c).toUInt64) ∧
        (∀ c, (w₀.counters.get c).toNat + n c < 2 ^ 64 →
          (w₄.counters.get c).toNat = (w₀.counters.get c).toNat + n c) ∧
        Accounts n t (Callers.stock {} w₀) (Callers.stock {} w₄) := by
  intro w₀ w₁ w₂ w₃ w₄ t
  have h₀ : (fresh {}).Calls {} 0 w₀ {} := .cons (.registered 1 0) .nil
  have hcreated : w₁.createdBy 0 0 .probe0 = 1 := by decide +kernel
  have hran : (w₂.runTable 0).2 + (w₂.nestedAnswers w₃).sum = 1 := by decide +kernel
  have h : w₀.Calls {} t w₄ {} := by
    have h₁ : w₀.Call {} 0 w₁ (Callers.take {} 0) := .classic (r := 0) rfl
    have h₂ := Call.used (w := w₁) (a := Callers.take {} 0) (r := 0) 0 .probe0 rfl
    have h₃ := Call.tableRun (w := w₂) (a := Callers.take {} 0) 0
    rw [hcreated] at h₂
    rw [hran] at h₃
    have hrun := Calls.cons h₁ (.cons h₂ (.cons h₃
      (.cons (.releasedLocale (a := {}) 0) (.cons (.threadEnded 1) .nil))))
    simpa only [zero_add, add_zero, ← add_assoc] using hrun
  exact ⟨⟨h₀, h⟩, by decide +kernel, by decide +kernel,
    Calls.counters_account_for_stock h₀ h⟩

/-- A facet is recorded in a list of a caller's own, which is dropped before any teardown.
There is nothing recorded before and after, but one facet more was recorded than released. -/
theorem Calls.released_uncounted_with_list :
    let w₀ := ((fresh {}).addFacet .charClass).1.retainFacet 0
    let w := (w₀.reportRecorded none 1).releaseFacets [0]
    (fresh {}).Calls {} (Pi.single .recorded 1 + Pi.single .lost 1) w {} ∧
      w.counters.get .facetsRegistered = 1 ∧ w.counters.get .facetsReleased = 0 ∧
      ¬((w.counters.get .facetsRegistered).toNat - (w.counters.get .facetsReleased).toNat : Int) =
        (Callers.stock {} w).entries - (Callers.stock {} (fresh {})).entries := by
  intro w₀ w
  refine ⟨?_, by decide +kernel, by decide +kernel, by decide +kernel⟩
  have hrun : (fresh {}).Calls {} _ w {} :=
    .cons (.madeFacet .charClass) (.cons (.listMade (a := {})) (.cons (.retainedFacet 0)
      (.cons (.listRecorded (a := {}) [] none 0) (.cons (.listDropped (a := {}) [0]) .nil))))
  simpa only [zero_add, add_zero, List.length_singleton] using hrun

end World

end Hosted

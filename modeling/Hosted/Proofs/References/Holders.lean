import Hosted.Proofs.Facet.Indices
import Hosted.Proofs.References.Objects
import Hosted.Proofs.ThreadLocals.Map
import Mathlib.Data.Multiset.AddSub

/-!
# Who holds references

References to locales and facets are held within the environment, by registries, by the
settings of threads and by live locales, and by callers. `w.Kept hand` says that with
the callers holding `hand` every reference is accounted for: the count of an object is
the number of those who hold it.

What happens to the objects over time is `w.Ages w'`: every destruction shows in the
notices that were given, in the step in which the last reference went.
-/

namespace Hosted

/-- What a reference leads to. -/
inductive Holding where
  | locale (l : LocaleId)
  | facet (f : FacetId)
  deriving DecidableEq, Repr

/-- What shows of an object that has been destroyed: the name of a locale, the kind and
the tag of a probe. -/
inductive Remains where
  | locale (name : String)
  | probe (kind : FacetKind) (tag : String)
  deriving DecidableEq, Repr

def Payload.holdings : Payload → List Holding
  | .setting (some l) => [.locale l]
  | _ => []

/-- What the value in a cell holds. -/
def cellHoldings (cell : Option Payload) : List Holding := cell.elim [] Payload.holdings

def Locale.holdings (l : Locale) : List Holding := (l.facets.filterMap id).map .facet

/-- A registry holds its two locales and its facets, but for the settings of threads. -/
def Registry.holdings (g : Registry) : List Holding :=
  (g.classic.toList ++ g.global.toList).map .locale ++
    (g.lazy.map (·.2) ++ g.entries).map .facet

/-- A transparent locale has no facets, and just the classic locales have a name. -/
structure Locale.WellMade (l : Locale) : Prop where
  bare : l.transparent = true → l.facets = [] ∧ l.classic = false
  name_eq : l.name = if l.classic then classicName else unnamed

/-- What is noticed when a facet is destroyed. -/
def Facet.farewell : Facet → List Notice
  | .probe kind tag => [.dropped kind tag]
  | _ => []

def Notice.remains? : Notice → Option Remains
  | .logged (.localeDestroyed name) => some (.locale name)
  | .dropped kind tag => some (.probe kind tag)
  | _ => none

/-- The kinds of the facets that classic locales are made with. -/
def FacetKind.standard : List FacetKind := [.charClass, .numPunct, .collation]

namespace Counted

/-- What a live locale holds. -/
def holdings (o : Counted Locale) : List Holding := if o.refs = 0 then [] else o.body.holdings

/-- What is left of an object. -/
def remains {α : Type} (what : α → List Remains) (o : Counted α) : List Remains :=
  if o.refs = 0 then what o.body else []

variable {α : Type} {s : Shared α} {id : Nat} {o : Counted α}

theorem count_remains_retain (ho : s.objects[id]? = some o) (hne : o.refs ≠ 0)
    (what : α → List Remains) (x : Remains) :
    ((s.retain id).objects.flatMap (remains what)).count x =
      (s.objects.flatMap (remains what)).count x := by
  have hset := count_flatMap_set ho (remains what) { o with refs := o.refs + 1 } x
  have hne' : o.refs + 1 ≠ 0 := Nat.succ_ne_zero _
  simp only [remains, hne, hne', if_false] at hset
  simp only [Shared.retain, modify_eq_set_of_getElem? ho]
  exact Nat.add_right_cancel hset

/-- The last reference to go leaves remains. -/
theorem count_remains_release (ho : s.objects[id]? = some o) (hne : o.refs ≠ 0)
    (what : α → List Remains) (x : Remains) :
    ((s.objects.set id { o with refs := o.refs - 1 }).flatMap (remains what)).count x =
      (s.objects.flatMap (remains what)).count x +
        (if o.refs = 1 then what o.body else []).count x := by
  have hset := count_flatMap_set ho (remains what) { o with refs := o.refs - 1 } x
  have hone : (o.refs - 1 = 0) = (o.refs = 1) := propext (by omega)
  simp only [remains, hne, hone, if_false, List.count_nil, Nat.add_zero] at hset
  exact hset

theorem count_holdings_retain {s : Shared Locale} {o : Counted Locale}
    (ho : s.objects[id]? = some o) (hne : o.refs ≠ 0) (x : Holding) :
    ((s.retain id).objects.flatMap holdings).count x =
      (s.objects.flatMap holdings).count x := by
  have hset := count_flatMap_set ho holdings { o with refs := o.refs + 1 } x
  have hne' : o.refs + 1 ≠ 0 := Nat.succ_ne_zero _
  simp only [holdings, hne, hne', if_false] at hset
  simp only [Shared.retain, modify_eq_set_of_getElem? ho]
  exact Nat.add_right_cancel hset

/-- The last reference to a locale takes what it holds out of the environment. -/
theorem count_holdings_release {s : Shared Locale} {o : Counted Locale}
    (ho : s.objects[id]? = some o) (hne : o.refs ≠ 0) (x : Holding) :
    ((s.objects.set id { o with refs := o.refs - 1 }).flatMap holdings).count x +
        (if o.refs = 1 then o.body.holdings else []).count x =
      (s.objects.flatMap holdings).count x := by
  have hset := count_flatMap_set ho holdings { o with refs := o.refs - 1 } x
  have hlast : (o.refs - 1 = 0) = (o.refs = 1) := propext (by omega)
  simp only [holdings, hne, hlast, if_false] at hset
  by_cases hone : o.refs = 1
  · simp only [hone, if_true, List.count_nil] at hset ⊢
    omega
  · simp only [hone, if_false, List.count_nil] at hset ⊢
    omega

end Counted

namespace World

/-- What comes with an answer that may be missing. -/
def handed {α : Type} (what : α → Holding) (answer : Option α) : Multiset Holding :=
  answer.toList.map what

/-- The references to a locale or a facet. -/
def refsOf (w : World) : Holding → Nat
  | .locale l => w.locales.refs l
  | .facet f => w.facets.refs f

/-- What is held within the environment. -/
def held (w : World) : List Holding :=
  w.registries.flatMap Registry.holdings ++
    w.locals.cells.flatMap cellHoldings ++
    w.locales.objects.flatMap Counted.holdings

/-- What is left of all destroyed objects. -/
def remains (w : World) : List Remains :=
  w.locales.objects.flatMap (Counted.remains fun l => [.locale l.name]) ++
    w.facets.objects.flatMap (Counted.remains fun f => f.farewell.filterMap Notice.remains?)

/-- Some registry keeps the settings of threads in this thread local. -/
def IsHome (w : World) (id : LocalId) : Prop :=
  ∃ r g, w.registry? r = some g ∧ g.threadLocale = id

/-- A thread local that callers have made. -/
def OfCallers (w : World) (id : LocalId) : Prop := id < w.locals.locals.length ∧ ¬w.IsHome id

/-- Settings are bound through the thread locals of registries, tagged values through all
others. -/
structure Admits (w : World) (id : LocalId) (v : Payload) : Prop where
  setting : w.IsHome id → ∃ l, v = .setting l
  tracked : ¬w.IsHome id → ∃ text, v = .tracked text

/-- The registry of the process, if there is one, is one of the registries. -/
def OwnsRegistry (w : World) : Prop :=
  ∀ r, w.processRegistry = some r → (w.registry? r).isSome

/-- A row of facets has one of the kind at the index of the kind. -/
def Carries (w : World) (facets : List (Option FacetId)) (kind : FacetKind) : Prop :=
  ∃ i f p, w.indices.find? (.kind kind.indexOwner) = some i ∧ facets[i]?.join = some f ∧
    w.facets.objects[f]? = some p ∧ p.body.kind = kind

/-- A classic locale, with the facets that classic locales are made with. -/
def IsClassic (w : World) (c : LocaleId) : Prop :=
  ∃ o, w.locales.objects[c]? = some o ∧ o.body.classic = true ∧
    ∀ kind ∈ FacetKind.standard, w.Carries o.body.facets kind

/-- Each registry has a thread local of its own, where no value is left that no thread sees. -/
structure Housed (w : World) (m : BindingMap) : Prop where
  describes : m.Describes w w.IsHome
  home_live : ∀ {r g}, w.registry? r = some g → g.threadLocale ∈ m.live
  home_inj : ∀ {r r' g g'}, w.registry? r = some g → w.registry? r' = some g' →
    g.threadLocale = g'.threadLocale → r = r'
  admits : ∀ {id v}, v ∈ w.locals.valuesOf id → w.Admits id v

/-- With callers holding `hand`, all references are accounted for. No two facets that a
registry has created on demand have one index, and what it has as its classic locale is one. -/
structure Kept (w : World) (hand : Multiset Holding) : Prop where
  housed : ∃ m, w.Housed m
  indexed : w.indices.Sound
  cached : ∀ g ∈ w.registries, (g.lazy.map (·.1)).Nodup
  made : ∀ o ∈ w.locales.objects, o.body.WellMade
  classic : ∀ g ∈ w.registries, ∀ c, g.classic = some c → w.IsClassic c
  balanced : ∀ x, w.refsOf x = w.held.count x + hand.count x

/-- Objects age, indices of kinds stay, and what has been noticed since is what has been
destroyed since. -/
structure Ages (w w' : World) : Prop where
  locales : w.locales.Ages w'.locales
  facets : w.facets.Ages w'.facets
  indices : ∀ {kind i}, w.indices.find? (.kind kind) = some i →
    w'.indices.find? (.kind kind) = some i
  notices : ∃ new, w'.notices = w.notices ++ new ∧
    ∀ x, w'.remains.count x = w.remains.count x + (new.filterMap Notice.remains?).count x

/-- Registries stay and keep their thread local; a new one gets a new one. Exit tables stay,
too. -/
structure Extends (w w' : World) : Prop where
  registry : ∀ {r g}, w.registry? r = some g →
    ∃ g', w'.registry? r = some g' ∧ g'.threadLocale = g.threadLocale ∧ g'.exits = g.exits
  home : ∀ {id}, w'.IsHome id → w.IsHome id ∨ w.locals.locals.length ≤ id
  process : w.OwnsRegistry → w'.OwnsRegistry
  locals_le : w.locals.locals.length ≤ w'.locals.locals.length
  exits_le : w.exits.length ≤ w'.exits.length

/-- What comes after `w`, with callers holding `hand'`. -/
structure Keeps (w w' : World) (hand' : Multiset Holding) : Prop where
  kept : w'.Kept hand'
  ages : w.Ages w'
  extended : w.Extends w'

variable {w w' w'' : World} {hand hand' : Multiset Holding}

/-! ## Ageing and extending -/

theorem Ages.refl (w : World) : w.Ages w where
  locales := Shared.Ages.refl _
  facets := Shared.Ages.refl _
  indices h := h
  notices := ⟨[], by simp⟩

theorem Ages.trans (h : w.Ages w') (h' : w'.Ages w'') : w.Ages w'' where
  locales := Shared.Ages.trans h.locales h'.locales
  facets := Shared.Ages.trans h.facets h'.facets
  indices hi := h'.indices (h.indices hi)
  notices := by
    obtain ⟨new, hnew, hcount⟩ := h.notices
    obtain ⟨new', hnew', hcount'⟩ := h'.notices
    refine ⟨new ++ new', by rw [hnew', hnew, List.append_assoc], ?_⟩
    intro x
    rw [hcount', hcount, List.filterMap_append, List.count_append, Nat.add_assoc]

theorem Extends.refl (w : World) : w.Extends w where
  registry h := ⟨_, h, rfl, rfl⟩
  home := Or.inl
  process h := h
  locals_le := Nat.le_refl _
  exits_le := Nat.le_refl _

theorem Extends.trans (h : w.Extends w') (h' : w'.Extends w'') : w.Extends w'' where
  registry hr := by
    obtain ⟨g', hg', hlocal, hexits⟩ := h.registry hr
    obtain ⟨g'', hg'', hlocal', hexits'⟩ := h'.registry hg'
    exact ⟨g'', hg'', hlocal'.trans hlocal, hexits'.trans hexits⟩
  home hid := by
    rcases h'.home hid with hid' | hge
    · exact h.home hid'
    · exact Or.inr (Nat.le_trans h.locals_le hge)
  process hp := h'.process (h.process hp)
  locals_le := Nat.le_trans h.locals_le h'.locals_le
  exits_le := Nat.le_trans h.exits_le h'.exits_le

theorem Extends.ofCallers (h : w.Extends w') {id : LocalId} (hid : w.OfCallers id) :
    w'.OfCallers id := by
  refine ⟨Nat.lt_of_lt_of_le hid.1 h.locals_le, ?_⟩
  intro hid'
  rcases h.home hid' with hold | hge
  · exact hid.2 hold
  · exact absurd hid.1 (Nat.not_lt.2 hge)

/-- Registries may be changed as long as they keep their thread locals. -/
theorem Extends.of_homes (hprocess : w'.processRegistry = w.processRegistry)
    (hlocals : w.locals.locals.length ≤ w'.locals.locals.length)
    (hexits : w.exits.length ≤ w'.exits.length)
    (hregistries : ∀ r, (w'.registry? r).map (fun g => (g.threadLocale, g.exits)) =
      (w.registry? r).map fun g => (g.threadLocale, g.exits)) : w.Extends w' where
  registry {r g} hg := by
    have hr := hregistries r
    rw [hg, Option.map_some, Option.map_eq_some_iff] at hr
    obtain ⟨g', hg', heq⟩ := hr
    exact ⟨g', hg', congrArg Prod.fst heq, congrArg Prod.snd heq⟩
  home := by
    rintro id ⟨r, g', hg', rfl⟩
    have hr := hregistries r
    rw [hg', Option.map_some, eq_comm, Option.map_eq_some_iff] at hr
    obtain ⟨g, hg, heq⟩ := hr
    exact Or.inl ⟨r, g, hg, congrArg Prod.fst heq⟩
  process hp r hr := by
    have hsome := hp r (hprocess ▸ hr)
    have hr := hregistries r
    cases hg : w.registry? r with
    | none => simp [hg] at hsome
    | some g =>
        rw [hg, Option.map_some, Option.map_eq_some_iff] at hr
        obtain ⟨g', hg', -⟩ := hr
        rw [hg']
        rfl
  locals_le := hlocals
  exits_le := hexits

theorem Unmoved.extends (h : w.Unmoved w') : w.Extends w' :=
  Extends.of_homes h.processRegistry (Nat.le_of_eq (by rw [h.locals]))
    (Nat.le_of_eq (by rw [h.exits])) fun r => by rw [h.registry?]

theorem Keeps.trans {hand'' : Multiset Holding} (h : w.Keeps w' hand')
    (h' : w'.Keeps w'' hand'') : w.Keeps w'' hand'' :=
  ⟨h'.kept, h.ages.trans h'.ages, h.extended.trans h'.extended⟩

theorem Kept.refl (h : w.Kept hand) : w.Keeps w hand := ⟨h, Ages.refl w, Extends.refl w⟩

theorem Kept.of_eq (h : w.Kept hand) (heq : hand = hand') : w.Kept hand' := heq ▸ h

theorem Keeps.of_eq (h : w.Keeps w' hand) (heq : hand = hand') : w.Keeps w' hand' := heq ▸ h

theorem Carries.mono {facets : List (Option FacetId)} {kind : FacetKind}
    (h : w.Carries facets kind) (hfacets : w.facets.Ages w'.facets)
    (hindices : ∀ {kind i}, w.indices.find? (.kind kind) = some i →
      w'.indices.find? (.kind kind) = some i) : w'.Carries facets kind := by
  obtain ⟨i, f, p, hi, hf, hp, hkind⟩ := h
  obtain ⟨p', hp', hbody, -⟩ := hfacets hp
  exact ⟨i, f, p', hindices hi, hf, hp', hbody ▸ hkind⟩

/-- Once a classic locale, always one. -/
theorem IsClassic.mono {c : LocaleId} (h : w.IsClassic c) (hlocales : w.locales.Ages w'.locales)
    (hfacets : w.facets.Ages w'.facets)
    (hindices : ∀ {kind i}, w.indices.find? (.kind kind) = some i →
      w'.indices.find? (.kind kind) = some i) : w'.IsClassic c := by
  obtain ⟨o, ho, hclassic, hkinds⟩ := h
  obtain ⟨o', ho', hbody, -⟩ := hlocales ho
  refine ⟨o', ho', hbody ▸ hclassic, ?_⟩
  intro kind hkind
  rw [hbody]
  exact (hkinds kind hkind).mono hfacets hindices

theorem IsClassic.ages {c : LocaleId} (h : w.IsClassic c) (hages : w.Ages w') : w'.IsClassic c :=
  h.mono hages.locales hages.facets hages.indices

/-! ## Housing -/

theorem isHome_congr (hregistries : ∀ r, (w'.registry? r).map (·.threadLocale) =
    (w.registry? r).map (·.threadLocale)) (id : LocalId) : w'.IsHome id ↔ w.IsHome id := by
  have hiff : ∀ w : World, w.IsHome id ↔ ∃ r, (w.registry? r).map (·.threadLocale) = some id := by
    intro w
    simp [IsHome]
  rw [hiff, hiff]
  simp only [hregistries]

theorem Admits.congr {id : LocalId} {v : Payload} (h : w.Admits id v)
    (hhome : w'.IsHome id ↔ w.IsHome id) : w'.Admits id v :=
  ⟨fun hid => h.setting (hhome.1 hid), fun hid => h.tracked fun hid' => hid (hhome.2 hid')⟩

/-- The thread locals may come to a new map as long as registries keep theirs. -/
theorem Housed.congr {m m' : BindingMap} (h : w.Housed m) (hm' : m'.Describes w' w.IsHome)
    (hregistries : ∀ r, (w'.registry? r).map (·.threadLocale) =
      (w.registry? r).map (·.threadLocale))
    (hlive : ∀ {id}, w.IsHome id → id ∈ m.live → id ∈ m'.live)
    (hadmits : ∀ {id v}, v ∈ w'.locals.valuesOf id → w.Admits id v) : w'.Housed m' := by
  have hback : ∀ {r g'}, w'.registry? r = some g' →
      ∃ g, w.registry? r = some g ∧ g.threadLocale = g'.threadLocale := by
    intro r g' hg'
    have hr := hregistries r
    rw [hg', Option.map_some, eq_comm, Option.map_eq_some_iff] at hr
    exact hr
  refine ⟨hm'.mono fun id => (isHome_congr hregistries id).1, ?_, ?_, ?_⟩
  · intro r g' hg'
    obtain ⟨g, hg, heq⟩ := hback hg'
    have hlive' := hlive ⟨r, g, hg, rfl⟩ (h.home_live hg)
    rwa [heq] at hlive'
  · intro r r' g₁ g₂ h₁ h₂ heq
    obtain ⟨g, hg, hgl⟩ := hback h₁
    obtain ⟨g', hg', hgl'⟩ := hback h₂
    exact h.home_inj hg hg' (by rw [hgl, hgl', heq])
  · intro id v hv
    exact (hadmits hv).congr (isHome_congr hregistries id)

/-- Nothing but the thread locals of registries counts. -/
theorem Housed.of_locals_eq {m : BindingMap} (h : w.Housed m) (hlocals : w'.locals = w.locals)
    (hregistries : ∀ r, (w'.registry? r).map (·.threadLocale) =
      (w.registry? r).map (·.threadLocale)) : w'.Housed m :=
  h.congr (h.describes.of_locals_eq hlocals) hregistries (fun _ hid => hid) (hlocals ▸ h.admits)

/-! ## Accounts -/

theorem Kept.refs_pos_of_mem (h : w.Kept hand) {x : Holding} (hx : x ∈ hand) :
    0 < w.refsOf x := by
  have hb := h.balanced x
  have hpos := Multiset.count_pos.2 hx
  omega

theorem Kept.refs_pos_of_held (h : w.Kept hand) {x : Holding} (hx : x ∈ w.held) :
    0 < w.refsOf x := by
  have hb := h.balanced x
  have hpos := List.count_pos_iff.2 hx
  omega

theorem mem_held_of_registry {r : RegistryId} {g : Registry} {x : Holding}
    (hg : w.registry? r = some g) (hx : x ∈ g.holdings) : x ∈ w.held := by
  refine List.mem_append_left _ (List.mem_append_left _ ?_)
  exact List.mem_flatMap.2 ⟨g, List.mem_of_getElem? hg, hx⟩

theorem mem_held_of_cell {c : CellId} {v : Payload} {x : Holding}
    (hc : w.locals.cell? c = some v) (hx : x ∈ v.holdings) : x ∈ w.held := by
  refine List.mem_append_left _ (List.mem_append_right _ ?_)
  have hget : w.locals.cells[c]? = some (some v) := by
    unfold Locals.cell? at hc
    exact Option.join_eq_some_iff.1 hc
  exact List.mem_flatMap.2 ⟨some v, List.mem_of_getElem? hget, hx⟩

theorem mem_held_of_locale {l : LocaleId} {body : Locale} {x : Holding}
    (hl : w.locales.get? l = some body) (hx : x ∈ body.holdings) : x ∈ w.held := by
  obtain ⟨o, ho, hne, rfl⟩ := Shared.get?_eq_some_iff.1 hl
  refine List.mem_append_right _ (List.mem_flatMap.2 ⟨o, List.mem_of_getElem? ho, ?_⟩)
  rw [Counted.holdings, if_neg hne]
  exact hx

end World

end Hosted

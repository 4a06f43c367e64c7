import Hosted.Log.Journal
import Hosted.Proofs.Log.Emitter
import Mathlib.Logic.Function.Basic

/-!
# Delivery

Emitters are installed in a journal one after the other, and come back to the caller when they
are removed or replaced. The calls alone tell which emitter is installed and which entries it is
to be given. An output is written these entries and nothing else, and an emitter numbers those
that need an identifier without a gap, however often it was installed.
-/

namespace Hosted.Log

namespace Journal

variable {j : Journal}

theorem configure_of_configured (h : j.threshold ≠ .unconfigured) (settings : Settings) :
    j.configure settings = j := by
  unfold configure
  split
  · next hthreshold => exact absurd hthreshold h
  · rfl

/-- What configuring does as long as nothing has been decided. -/
theorem configure_of_unconfigured (hthreshold : j.threshold = .unconfigured)
    (hemitter : j.emitter = none) (settings : Settings) :
    j.configure settings =
      { threshold := .ofLevel settings.logLevel
        emitter := settings.logLevel.map fun _ =>
          { output := (j.openOutput (settingsOutput settings)).2, runId := "runtime" }
        outputs := settings.logLevel.elim j.outputs fun _ =>
          (j.openOutput (settingsOutput settings)).1.outputs } := by
  unfold configure
  rw [hthreshold]
  cases hlevel : settings.logLevel with
  | none =>
      simp [← hemitter]
  | some level => simp [hemitter]

/-- An output that is opened is there already or is a new one at the end. -/
theorem exists_openOutput (j : Journal) (kind : OutputKind) :
    ∃ opened : List Output, (∀ o ∈ opened, o.writes = [] ∧ o.room = none) ∧
      (j.openOutput kind).1.outputs = j.outputs ++ opened := by
  unfold openOutput
  cases j.outputs.findIdx? (·.kind = kind) with
  | some i => exact ⟨[], nofun, (List.append_nil _).symm⟩
  | none => exact ⟨[{ kind }], List.forall_mem_singleton.2 ⟨rfl, rfl⟩, rfl⟩

theorem openOutput_snd (j : Journal) (kind : OutputKind) :
    (j.openOutput kind).2 = (openOutput { outputs := j.outputs } kind).2 := by
  unfold openOutput
  cases j.outputs.findIdx? (·.kind = kind) <;> rfl

end Journal

/-- Whose an emitter is: one of the caller's, or the one that the journal makes for an output
when it is configured. -/
inductive Sender where
  | caller (i : Nat)
  | journal (kind : OutputKind)
  deriving DecidableEq

/-- A call on a journal. -/
inductive Call where
  | install (s : Sender) (level : Option Level)
  | uninstall
  | configure (settings : Settings)
  | emit (entry : Entry)

/-! ## What the calls ask for -/

/-- Who is installed, and from which level on entries pass. -/
structure Switch where
  installed : Option Sender := none
  threshold : Threshold := .unconfigured

namespace Switch

/-- Settings count as long as nothing else has been decided. -/
def configure (w : Switch) (settings : Settings) : Switch :=
  match w.threshold with
  | .unconfigured =>
    { installed := settings.logLevel.map fun _ => .journal (Journal.settingsOutput settings)
      threshold := .ofLevel settings.logLevel }
  | _ => w

theorem configure_of_unconfigured {w : Switch} (h : w.threshold = .unconfigured)
    (settings : Settings) :
    w.configure settings =
      { installed := settings.logLevel.map fun _ => .journal (Journal.settingsOutput settings)
        threshold := .ofLevel settings.logLevel } := by
  rw [configure, h]

theorem configure_of_configured {w : Switch} (h : w.threshold ≠ .unconfigured)
    (settings : Settings) : w.configure settings = w := by
  unfold configure
  split
  · next hw => exact absurd hw h
  · rfl

/-- What a call changes. An entry is written under the settings of the process. -/
def call (settings : Settings) (w : Switch) : Call → Switch
  | .install s level => { installed := some s, threshold := .ofLevel level }
  | .uninstall => { threshold := .off }
  | .configure settings => w.configure settings
  | .emit _ => w.configure settings

/-- An entry that passes is for the installed emitter. -/
def recipient (w : Switch) (entry : Entry) : Option (Sender × Entry) :=
  if w.threshold.passes entry.level then w.installed.map (·, entry) else none

/-- What a call delivers. -/
def delivery (settings : Settings) (w : Switch) : Call → Option (Sender × Entry)
  | .emit entry => (w.configure settings).recipient entry
  | _ => none

end Switch

/-- Who is installed after all calls. -/
def switch (settings : Settings) (calls : List Call) : Switch :=
  calls.foldl (Switch.call settings) {}

/-- The entries that calls deliver, each with its emitter, if they find the switch at `w`. -/
def deliveriesFrom (settings : Settings) : Switch → List Call → List (Sender × Entry)
  | _, [] => []
  | w, c :: calls =>
    (w.delivery settings c).toList ++ deliveriesFrom settings (w.call settings c) calls

/-- The entries that all calls deliver. -/
def deliveries (settings : Settings) (calls : List Call) : List (Sender × Entry) :=
  deliveriesFrom settings {} calls

variable {settings : Settings} {calls : List Call} {s s' : Sender} {e : Emitter} {entry : Entry}
  {w : Switch} {ds : List (Sender × Entry)}

theorem switch_concat (c : Call) :
    switch settings (calls ++ [c]) = (switch settings calls).call settings c := by
  simp [switch]

theorem deliveriesFrom_concat (w : Switch) (c : Call) :
    deliveriesFrom settings w (calls ++ [c]) =
      deliveriesFrom settings w calls ++
        ((calls.foldl (Switch.call settings) w).delivery settings c).toList := by
  induction calls generalizing w with
  | nil => simp [deliveriesFrom]
  | cons c' calls ih => simp [deliveriesFrom, ih]

theorem deliveries_concat (c : Call) :
    deliveries settings (calls ++ [c]) =
      deliveries settings calls ++ ((switch settings calls).delivery settings c).toList :=
  deliveriesFrom_concat {} c

/-! ## What is written for it -/

/-- How many of the entries for an emitter need an identifier. -/
def unlabelled (s : Sender) (ds : List (Sender × Entry)) : Nat :=
  ds.countP fun d => d.1 = s ∧ d.2.traceId = ""

theorem unlabelled_concat (s s' : Sender) (entry : Entry) :
    unlabelled s (ds ++ [(s', entry)]) =
      unlabelled s ds + if s' = s ∧ entry.traceId = "" then 1 else 0 := by
  simp [unlabelled, List.countP_singleton]

section Origin

variable (origin : Sender → Emitter)

/-- An emitter after deliveries: it has given an identifier to each entry that needed one. -/
def current (ds : List (Sender × Entry)) (s : Sender) : Emitter :=
  { origin s with assigned := (origin s).assigned + unlabelled s ds }

/-- An entry as its emitter writes it after the deliveries `before`. -/
def written (before : List (Sender × Entry)) (s : Sender) (entry : Entry) : Entry :=
  if entry.traceId = "" then
    { entry with
      traceId := Emitter.traceId (origin s).runId entry.component
        ((origin s).assigned + unlabelled s before + 1) }
  else entry

/-- The entries written to the output numbered `n`, in order, after the deliveries `before`. -/
def writtenTo (n : Nat) : (before ds : List (Sender × Entry)) → List Entry
  | _, [] => []
  | before, (s, entry) :: ds =>
    let rest := writtenTo n (before ++ [(s, entry)]) ds
    if (origin s).output = n then written origin before s entry :: rest else rest

theorem writtenTo_concat (n : Nat) (before ds : List (Sender × Entry)) (s : Sender)
    (entry : Entry) :
    writtenTo origin n before (ds ++ [(s, entry)]) =
      writtenTo origin n before ds ++
        if (origin s).output = n then [written origin (before ++ ds) s entry] else [] := by
  induction ds generalizing before with
  | nil => simp [writtenTo]
  | cons d ds ih =>
      obtain ⟨s', entry'⟩ := d
      rw [List.cons_append, writtenTo, writtenTo, ih, List.append_assoc, List.singleton_append]
      split_ifs <;> simp

theorem label_current (ds : List (Sender × Entry)) (s : Sender) (entry : Entry) :
    (current origin ds s).label entry =
      (current origin (ds ++ [(s, entry)]) s, written origin ds s entry) := by
  unfold Emitter.label written current
  rw [unlabelled_concat]
  by_cases h : entry.traceId = ""
  · simp [h, Nat.add_assoc]
  · simp [h]

theorem current_concat_of_ne (h : s' ≠ s) :
    current origin (ds ++ [(s', entry)]) s = current origin ds s := by
  simp [current, unlabelled_concat, h]

end Origin

/-! ## Calls on a journal -/

/-- A journal and the emitters that are in the caller's hands. -/
structure Desk where
  journal : Journal
  held : Sender → Option Emitter

namespace Desk

/-- Before all calls, with the outputs and emitters that there are. -/
def opening (outputs : List Output) (emitters : Nat → Emitter) : Desk where
  journal := { outputs }
  held
    | .caller i => some (emitters i)
    | .journal _ => none

/-- The emitters that there are at the opening. The journal's own writes to the output of its
kind, or to a new one. -/
def origin (outputs : List Output) (emitters : Nat → Emitter) : Sender → Emitter
  | .caller i => emitters i
  | .journal kind => { output := (Journal.openOutput { outputs } kind).2, runId := "runtime" }

/-- The emitter that was installed comes back. -/
def putBack (held : Sender → Option Emitter) (installed : Option Sender)
    (before : Option Emitter) : Sender → Option Emitter :=
  match installed with
  | none => held
  | some s => Function.update held s before

/-- A desk after calls from `start`. Only an emitter in the caller's hands can be installed. -/
inductive Run (settings : Settings) (start : Desk) : List Call → Desk → Prop
  | nil : Run settings start [] start
  | install {calls : List Call} {d : Desk} (h : Run settings start calls d) {s : Sender}
      {e : Emitter} (hheld : d.held s = some e) (level : Option Level) :
      Run settings start (calls ++ [.install s level])
        { journal := (d.journal.install e level).1
          held := putBack (Function.update d.held s none) (switch settings calls).installed
            (d.journal.install e level).2 }
  | uninstall {calls : List Call} {d : Desk} (h : Run settings start calls d) :
      Run settings start (calls ++ [.uninstall])
        { journal := d.journal.uninstall.1
          held := putBack d.held (switch settings calls).installed d.journal.uninstall.2 }
  | configure {calls : List Call} {d : Desk} (h : Run settings start calls d)
      (settings' : Settings) :
      Run settings start (calls ++ [.configure settings'])
        { d with journal := d.journal.configure settings' }
  | emit {calls : List Call} {d : Desk} (h : Run settings start calls d) (entry : Entry) :
      Run settings start (calls ++ [.emit entry])
        { d with journal := d.journal.emit settings entry }

variable {outputs : List Output} {emitters : Nat → Emitter} {d : Desk}

/-- The outputs hold what has been delivered to their emitters. An output that was not there at
the opening was empty. -/
def Hold (outputs : List Output) (emitters : Nat → Emitter) (ds : List (Sender × Entry))
    (now : List Output) : Prop :=
  ∃ opened : List Output, (∀ o ∈ opened, o.writes = [] ∧ o.room = none) ∧
    ∀ n, now[n]? = (outputs ++ opened)[n]?.map fun o =>
      (writtenTo (origin outputs emitters) n [] ds).foldl Output.accept o

/-- A desk is as the switch and the deliveries say. -/
structure Agrees (outputs : List Output) (emitters : Nat → Emitter) (w : Switch)
    (ds : List (Sender × Entry)) (d : Desk) : Prop where
  threshold : d.journal.threshold = w.threshold
  installed : d.journal.emitter = w.installed.map (current (origin outputs emitters) ds)
  held : ∀ {s e}, d.held s = some e → e = current (origin outputs emitters) ds s
  apart : ∀ {s}, w.installed = some s → d.held s = none
  kept : ∀ i, w.installed ≠ some (.caller i) → d.held (.caller i) ≠ none
  hold : Hold outputs emitters ds d.journal.outputs
  /-- Until something is decided, nothing is written, and the journal has made no emitter. -/
  undecided : w.threshold = .unconfigured →
    w.installed = none ∧ ds = [] ∧ d.journal.outputs = outputs ∧
      ∀ kind, d.held (.journal kind) = none

theorem agrees_opening (outputs : List Output) (emitters : Nat → Emitter) :
    Agrees outputs emitters {} [] (opening outputs emitters) where
  threshold := rfl
  installed := rfl
  held := by
    intro s e h
    cases s with
    | caller i => exact (Option.some.inj h).symm
    | journal kind => cases h
  apart h := nomatch h
  kept i _ := nofun
  hold := ⟨[], nofun, fun n => by simp [opening, writtenTo]⟩
  undecided _ := ⟨rfl, rfl, rfl, fun _ => rfl⟩

theorem ofLevel_ne_unconfigured (level : Option Level) :
    Threshold.ofLevel level ≠ .unconfigured := by
  cases level <;> exact nofun

/-- The emitter that comes back is the one that was installed. -/
theorem Agrees.putBack_apply (h : Agrees outputs emitters w ds d) (held : Sender → Option Emitter)
    (s : Sender) :
    putBack held w.installed d.journal.emitter s =
      if w.installed = some s then some (current (origin outputs emitters) ds s) else held s := by
  rw [h.installed]
  cases hw : w.installed with
  | none => simp [putBack]
  | some s' =>
      by_cases hs : s' = s
      · subst hs
        simp [putBack]
      · simp [putBack, Function.update_of_ne (Ne.symm hs), hs]

theorem Agrees.uninstall (h : Agrees outputs emitters w ds d) :
    Agrees outputs emitters { threshold := .off } ds
      { journal := d.journal.uninstall.1
        held := putBack d.held w.installed d.journal.uninstall.2 } := by
  have hback := h.putBack_apply d.held
  exact
    { threshold := rfl
      installed := rfl
      held := by
        intro s e hs
        replace hs := (hback s).symm.trans hs
        split_ifs at hs
        · exact (Option.some.inj hs).symm
        · exact h.held hs
      apart := nofun
      kept := by
        intro i _ hnone
        replace hnone := (hback (.caller i)).symm.trans hnone
        split_ifs at hnone with hi
        exact h.kept i hi hnone
      hold := h.hold
      undecided := nofun }

theorem Agrees.install (h : Agrees outputs emitters w ds d) (hheld : d.held s = some e)
    (level : Option Level) :
    Agrees outputs emitters { installed := some s, threshold := .ofLevel level } ds
      { journal := (d.journal.install e level).1
        held := putBack (Function.update d.held s none) w.installed
          (d.journal.install e level).2 } := by
  have hapart : w.installed ≠ some s := by
    intro hs
    rw [h.apart hs] at hheld
    cases hheld
  have hback := h.putBack_apply (Function.update d.held s none)
  exact
    { threshold := rfl
      installed := congrArg some (h.held hheld)
      held := by
        intro s' e' hs'
        replace hs' := (hback s').symm.trans hs'
        rw [Function.update_apply] at hs'
        split_ifs at hs'
        · exact (Option.some.inj hs').symm
        · exact h.held hs'
      apart := by
        rintro _ ⟨⟩
        refine (hback s).trans ?_
        rw [if_neg hapart, Function.update_self]
      kept := by
        intro i hi hnone
        have hne : Sender.caller i ≠ s := fun heq => hi (congrArg some heq.symm)
        replace hnone := (hback (.caller i)).symm.trans hnone
        rw [Function.update_of_ne hne] at hnone
        split_ifs at hnone with hi'
        exact h.kept i hi' hnone
      hold := h.hold
      undecided := fun hlevel => absurd hlevel (ofLevel_ne_unconfigured level) }

theorem Agrees.configure (h : Agrees outputs emitters w ds d) (settings : Settings) :
    Agrees outputs emitters (w.configure settings) ds
      { d with journal := d.journal.configure settings } := by
  by_cases hw : w.threshold = .unconfigured
  · obtain ⟨hnone, rfl, houtputs, hfree⟩ := h.undecided hw
    have hemitter : d.journal.emitter = none := by rw [h.installed, hnone]; rfl
    have hthreshold : d.journal.threshold = .unconfigured := h.threshold.trans hw
    rw [Journal.configure_of_unconfigured hthreshold hemitter, Switch.configure_of_unconfigured hw]
    exact
      { threshold := rfl
        installed := by
          cases settings.logLevel with
          | none => rfl
          | some level =>
              simp [current, origin, unlabelled, Journal.openOutput_snd d.journal, houtputs]
        held := h.held
        apart := by
          intro s hs
          obtain ⟨_, -, rfl⟩ := Option.map_eq_some_iff.1 hs
          exact hfree _
        kept := fun i _ => h.kept i (by rw [hnone]; exact nofun)
        hold := by
          obtain ⟨opened, hfresh, hopen⟩ :=
            d.journal.exists_openOutput (Journal.settingsOutput settings)
          cases settings.logLevel with
          | none => exact ⟨[], nofun, fun n => by simp [houtputs, writtenTo]⟩
          | some level => exact ⟨opened, hfresh, fun n => by simp [hopen, houtputs, writtenTo]⟩
        undecided := fun hlevel => absurd hlevel (ofLevel_ne_unconfigured _) }
  · have hj : d.journal.threshold ≠ .unconfigured := by rwa [h.threshold]
    rw [Journal.configure_of_configured hj, Switch.configure_of_configured hw]
    exact h

/-- One more entry for an emitter is written to its output. -/
theorem Hold.concat {now : List Output} (h : Hold outputs emitters ds now) (s : Sender)
    (entry : Entry) :
    Hold outputs emitters (ds ++ [(s, entry)])
      ((current (origin outputs emitters) ds s).emit now entry).2.1 := by
  obtain ⟨opened, hfresh, hnow⟩ := h
  refine ⟨opened, hfresh, fun n => ?_⟩
  rw [Emitter.getElem?_emit, hnow, label_current, writtenTo_concat, Option.map_map]
  refine congrArg (Option.map · _) (funext fun o => ?_)
  rw [List.foldl_append, List.nil_append]
  simp only [Function.comp_apply, current]
  split_ifs with hn <;> simp [hn]

/-- What the switch lets pass is given to the installed emitter. -/
theorem Agrees.deliver (h : Agrees outputs emitters w ds d)
    (hpasses : w.threshold.passes entry.level = true) (hs : w.installed = some s) :
    Agrees outputs emitters w (ds ++ [(s, entry)])
      { d with journal :=
        { d.journal with
          emitter := some ((current (origin outputs emitters) ds s).emit d.journal.outputs entry).1
          outputs := ((current (origin outputs emitters) ds s).emit d.journal.outputs entry).2.1 } } where
  threshold := h.threshold
  installed := by
    rw [hs, Emitter.emit_fst, label_current]
    rfl
  held := by
    intro s' e hs'
    have hne : s ≠ s' := by
      rintro rfl
      exact absurd ((h.apart hs).symm.trans hs') nofun
    rw [current_concat_of_ne _ hne]
    exact h.held hs'
  apart := h.apart
  kept := h.kept
  hold := h.hold.concat s entry
  undecided := by
    intro hw
    rw [hw] at hpasses
    cases hpasses

theorem Agrees.emit (h : Agrees outputs emitters w ds d) (settings : Settings) (entry : Entry) :
    Agrees outputs emitters (w.configure settings)
      (ds ++ ((w.configure settings).recipient entry).toList)
      { d with journal := d.journal.emit settings entry } := by
  have hconf := h.configure settings
  unfold Journal.emit Switch.recipient
  generalize w.configure settings = w' at hconf
  generalize d.journal.configure settings = j at hconf
  have hthreshold : j.threshold = w'.threshold := hconf.threshold
  have hinstalled : j.emitter = w'.installed.map (current (origin outputs emitters) ds) :=
    hconf.installed
  have henabled : j.isEnabled entry.level = w'.threshold.passes entry.level := by
    rw [Journal.isEnabled, hthreshold]
  simp only [henabled]
  cases hpasses : w'.threshold.passes entry.level with
  | false => simpa using hconf
  | true =>
      cases hs : w'.installed with
      | none => simpa [hinstalled, hs] using hconf
      | some s => simpa [hinstalled, hs] using hconf.deliver hpasses hs

theorem Run.agrees (h : Run settings (opening outputs emitters) calls d) :
    Agrees outputs emitters (switch settings calls) (deliveries settings calls) d := by
  induction h with
  | nil => exact agrees_opening outputs emitters
  | install h hheld level ih =>
      rw [switch_concat, deliveries_concat]
      exact (List.append_nil _).symm ▸ ih.install hheld level
  | uninstall h ih =>
      rw [switch_concat, deliveries_concat]
      exact (List.append_nil _).symm ▸ ih.uninstall
  | configure h settings' ih =>
      rw [switch_concat, deliveries_concat]
      exact (List.append_nil _).symm ▸ ih.configure settings'
  | emit h entry ih =>
      rw [switch_concat, deliveries_concat]
      exact ih.emit settings entry

theorem threshold_switch_concat (c : Call) :
    (switch settings (calls ++ [c])).threshold ≠ .unconfigured := by
  rw [switch_concat]
  have hconfigure : ∀ settings', ((switch settings calls).configure settings').threshold ≠
      .unconfigured := by
    intro settings'
    by_cases h : (switch settings calls).threshold = .unconfigured
    · rw [Switch.configure_of_unconfigured h]
      exact ofLevel_ne_unconfigured _
    · rwa [Switch.configure_of_configured h]
  cases c with
  | install s level => exact ofLevel_ne_unconfigured level
  | uninstall => exact nofun
  | configure settings' => exact hconfigure settings'
  | emit entry => exact hconfigure settings

theorem Hold.bytes {now : List Output} (h : Hold outputs emitters ds now) {n : Nat} {o : Output}
    (ho : outputs[n]? = some o) (hroom : o.room = none) :
    now[n]?.map Output.bytes =
      some (o.bytes ++ (writtenTo (origin outputs emitters) n [] ds).flatMap Entry.bytes) := by
  obtain ⟨opened, -, hnow⟩ := h
  have hlt := (List.getElem?_eq_some_iff.1 ho).1
  rw [hnow, List.getElem?_append_left hlt, ho, Option.map_map, Option.map_some,
    Function.comp_apply, Output.bytes_foldl_accept hroom]

/-- What is delivered to an emitter while it is installed is written to its output, and nothing
else is. A call answers with the emitter that was installed, and each of the caller's emitters is
installed or in hand, with the identifiers counted that it has given. After the first call
settings change nothing. -/
theorem Run.delivered (h : Run settings (opening outputs emitters) calls d) :
    Hold outputs emitters (deliveries settings calls) d.journal.outputs ∧
      (∀ n o, outputs[n]? = some o → o.room = none →
        d.journal.outputs[n]?.map Output.bytes =
          some (o.bytes ++
            (writtenTo (origin outputs emitters) n [] (deliveries settings calls)).flatMap
              Entry.bytes)) ∧
      (∀ e level, (d.journal.install e level).2 =
        (switch settings calls).installed.map
          (current (origin outputs emitters) (deliveries settings calls))) ∧
      d.journal.uninstall.2 =
        (switch settings calls).installed.map
          (current (origin outputs emitters) (deliveries settings calls)) ∧
      (∀ i, (switch settings calls).installed = some (.caller i) ∨
        d.held (.caller i) =
          some (current (origin outputs emitters) (deliveries settings calls) (.caller i))) ∧
      (calls ≠ [] → ∀ settings', d.journal.configure settings' = d.journal) := by
  have hagrees := h.agrees
  refine ⟨hagrees.hold, fun _ _ => hagrees.hold.bytes, fun _ _ => hagrees.installed,
    hagrees.installed, fun i => ?_, fun hcalls settings' => ?_⟩
  · by_cases hi : (switch settings calls).installed = some (.caller i)
    · exact .inl hi
    · obtain ⟨e, he⟩ := Option.ne_none_iff_exists'.1 (hagrees.kept i hi)
      rw [he, hagrees.held he]
      exact .inr rfl
  · refine Journal.configure_of_configured ?_ settings'
    rw [hagrees.threshold, ← List.dropLast_concat_getLast hcalls]
    exact threshold_switch_concat _

/-- The first entry goes to the journal's own emitter. Of the caller's first emitter one entry is
filtered, and one comes while the second emitter is installed, which lets nothing pass. -/
theorem Run.delivered_reinstalled :
    let settings : Settings := { logLevel := some .info }
    let emitters : Nat → Emitter := fun i => { output := i, runId := "r" }
    let outputs : List Output := [{ kind := .memory }, { kind := .memory }]
    let entry : Level → String → Entry := fun level id =>
      { timestamp := "t", traceId := id, level, event := "e" }
    let calls : List Call :=
      [.emit (entry .info ""), .install (.caller 0) (some .warn), .emit (entry .error ""),
        .emit (entry .info ""), .install (.caller 1) none, .emit (entry .fatal ""),
        .install (.caller 0) (some .trace), .emit (entry .debug "own"), .emit (entry .trace ""),
        .uninstall, .emit (entry .fatal "")]
    ∃ d, Run settings (opening outputs emitters) calls d ∧
      Hold outputs emitters (deliveries settings calls) d.journal.outputs ∧
      (writtenTo (origin outputs emitters) 0 [] (deliveries settings calls)).map
        (fun e => (e.level, e.traceId)) =
          [(.error, "kcrt::r::core::000001"), (.debug, "own"),
            (.trace, "kcrt::r::core::000002")] ∧
      writtenTo (origin outputs emitters) 1 [] (deliveries settings calls) = [] ∧
      (d.held (.caller 0)).map (·.assigned) = some 2 := by
  intro settings emitters outputs entry calls
  have hstart := @Run.nil settings (opening outputs emitters)
  have hfirst := Run.emit (Run.emit (Run.install (s := .caller 0) (hstart.emit (entry .info ""))
    rfl (some .warn)) (entry .error "")) (entry .info "")
  have hsecond := Run.emit (Run.install (s := .caller 1) hfirst rfl none) (entry .fatal "")
  have hagain := Run.emit (Run.emit (Run.install (s := .caller 0) hsecond rfl (some .trace))
    (entry .debug "own")) (entry .trace "")
  have hrun := Run.emit hagain.uninstall (entry .fatal "")
  obtain ⟨hhold, -⟩ := Run.delivered hrun
  exact ⟨_, hrun, hhold, by decide, rfl, rfl⟩

end Desk

end Hosted.Log

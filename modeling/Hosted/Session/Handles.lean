import Hosted.Session.State
import Hosted.Text.Utf8

/-!
# Steps on raw handles

Callers in C hold locales through raw handles and count the references themselves.
The null handle stands for no locale; every operation takes it. A fatal fault on the
way ends the process, since no caller in C could receive it.
-/

namespace Hosted.Session

/-- A raw handle by its name, or the null handle. -/
inductive HandleRef where
  | null
  | named (name : String)
  deriving DecidableEq, Repr

/-- Where a name is to be copied to: a buffer of some length, or none with a length
claimed for it. -/
inductive NameBuffer where
  | given (length : Nat)
  | missing (claimed : Nat)
  deriving DecidableEq, Repr

/-- A step on raw handles. A result is kept under the name `keep`, if there is one. -/
inductive HandleStep where
  | classic (keep : Option String)
  | global (keep : Option String)
  | empty (keep : Option String)
  | replaceGlobal (handle : HandleRef) (keep : Option String)
  | retain (handle : HandleRef)
  | release (handle : HandleRef)
  | name (handle : HandleRef) (buffer : NameBuffer)
  | isTransparent (handle : HandleRef)
  | covers (handle : HandleRef) (category : Int)
  | same (first second : HandleRef)
  /-- Turns one reference of a handle into a locale. -/
  | toLocale (handle : HandleRef) (keep : Option String)
  /-- Hands out a new reference to a locale. -/
  | ofLocale (locale : String) (keep : Option String)
  deriving DecidableEq, Repr

/-- A truth value as C has it. -/
def truthNumber (b : Bool) : Int := if b then 1 else 0

/-- What a buffer is filled with before a name is copied to it. -/
def filler : UInt8 := 0x7F

/-- The buffer after a name has been copied to it: as much of the name as leaves room
for a zero, and the zero. An empty buffer stays empty. -/
def copyName (name : List UInt8) (length : Nat) : List UInt8 :=
  if length = 0 then []
  else
    let n := min name.length (length - 1)
    name.take n ++ 0 :: List.replicate (length - n - 1) filler

/-- The locale behind a handle, if it has one and the handle stands for something. -/
def handleLocale? (s : Session) : HandleRef → Option Locale
  | .null => none
  | .named name => (s.handles.find? name).bind fun h => s.world.locale? h.locale

/-- A locale is held `n` times less. -/
def releaseTimes (s : Session) (l : LocaleId) (n : Nat) : Session :=
  s.onWorld (·.releaseLocales (List.replicate n l))

/-- Answers with a raw handle, taking over the reference to its locale. -/
def answerHandle (s : Session) (keep : Option String) (l : LocaleId) : Session × Outcome :=
  let same := s.handles.namesOf (·.locale = l)
  let s := match keep with
    | none => s.releaseTimes l 1
    | some name =>
      let before := s.handles.find? name
      let s := { s with handles := s.handles.put name ⟨l, 1⟩ }
      before.elim s fun old => s.releaseTimes old.locale old.held
  (s, .reply (.handle same))

/-- One reference less is held through a handle; without references the name goes. -/
def loosen (s : Session) (name : String) (h : RawHandle) : Session :=
  if h.held ≤ 1 then { s with handles := s.handles.erase name }
  else { s with handles := s.handles.put name { h with held := h.held - 1 } }

/-- Goes on with a handle that may be null. -/
def withHandle (s : Session) (h : HandleRef) (ifNull : Outcome)
    (f : String → RawHandle → Session × Outcome) : Session × Outcome :=
  match h with
  | .null => (s, ifNull)
  | .named name => s.withNamed s.handles name (f name)

/-- Goes on with the registry of the process on behalf of a caller in C. -/
def withRegistryForC (s : Session) (t : ThreadId)
    (f : Session → RegistryId → Session × Outcome) : Session × Outcome :=
  let (s, outcome) := s.withRegistry t .own f
  (s, outcome.forC)

/-- Performs a step on raw handles. -/
def handleStep (s : Session) (t : ThreadId) : HandleStep → Session × Outcome
  | .classic keep =>
    s.withRegistryForC t fun s r =>
      let (s, l) := s.perform (·.classicLocale r)
      s.answerHandle keep l
  | .global keep =>
    s.withRegistryForC t fun s r =>
      let (s, l) := s.perform (·.globalLocale r)
      s.answerHandle keep l
  | .empty keep =>
    s.withRegistryForC t fun s r =>
      let (s, l) := s.perform (·.emptyLocale r)
      s.answerHandle keep l
  | .replaceGlobal handle keep =>
    s.withHandle handle (.reply .nothing) fun _ h =>
      s.withRegistryForC t fun s r =>
        let (s, before) := s.perform (·.replaceGlobal r h.locale)
        s.answerHandle keep before
  | .retain handle =>
    s.withHandle handle (.reply .nothing) fun name h =>
      let s := { s with handles := s.handles.put name { h with held := h.held + 1 } }
      (s.onWorld (·.retainLocale h.locale), .reply .nothing)
  | .release handle =>
    s.withHandle handle (.reply .nothing) fun name h =>
      ((s.loosen name h).onWorld (·.releaseLocale h.locale), .reply .nothing)
  | .name handle buffer =>
    let name := (s.handleLocale? handle).elim [] fun l => Utf8.encode l.name.toList
    let copied := match buffer with
      | .given length => some (copyName name length)
      | .missing _ => none
    (s, .reply (.nameCopy name.length copied))
  | .isTransparent handle =>
    (s, .reply (.number (truthNumber ((s.handleLocale? handle).any (·.transparent)))))
  | .covers handle category =>
    let answer := match Category.ofNumber? category with
      | none => -1
      | some c => truthNumber ((s.handleLocale? handle).any (·.categories.contains c))
    (s, .reply (.number answer))
  | .same first second =>
    let locale (h : HandleRef) : Option LocaleId := match h with
      | .null => none
      | .named name => (s.handles.find? name).map (·.locale)
    let same := (locale first).isSome && locale first = locale second
    (s, .reply (.number (truthNumber same)))
  | .toLocale handle keep =>
    s.withHandle handle (.unknown "null") fun name h =>
      (s.loosen name h).answerLocale keep h.locale
  | .ofLocale locale keep =>
    s.withNamed s.locales locale fun l => (s.onWorld (·.retainLocale l)).answerHandle keep l

end Hosted.Session

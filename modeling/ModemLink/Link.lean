import ModemLink.Epoch
import ModemLink.Fault

/-!
# The link to the radio

The link is unbound, being bound, bound or dead.  A bind starts a new epoch, whose number is the
cookie the radio is given; the handle that comes back is kept only if the epoch is still the same.
While a bind is under way others may be begun and deaths reported from inside it, so every ending of
a bind names the cookie it was begun with.

Main statements: `current_beginBind`, `confirmDeath_of_ne`, `endBind_of_stale`.
-/

namespace ModemLink

/-- What the radio hands out for a bind, and what commands are sent on. -/
structure Handle where
  index : Nat
deriving DecidableEq, Inhabited

/-- The phases of the link. -/
inductive LinkPhase where
  | unbound
  | binding
  | bound
  | dead
deriving DecidableEq, Repr, Inhabited

namespace LinkPhase

/-- Every phase, in order. -/
def all : List LinkPhase := [.unbound, .binding, .bound, .dead]

/-- The name of the phase. -/
def name : LinkPhase → String
  | .unbound => "unbound"
  | .binding => "binding"
  | .bound => "bound"
  | .dead => "dead"

/-- The phase of a name. -/
def ofName? (name : String) : Option LinkPhase := all.find? (·.name == name)

end LinkPhase

/-- A handle together with the epoch it was bound in. -/
structure LiveLink where
  handle : Handle
  epoch : Epoch
deriving DecidableEq

/-- The state of the link. -/
structure Link where
  phase : LinkPhase
  /-- The handle of the present bind. -/
  handle : Option Handle
  /-- Whether a new attempt to bind is scheduled. -/
  retryArmed : Bool
  epoch : Epoch
deriving DecidableEq

namespace Link

/-- A link that was never bound. -/
def fresh : Link := ⟨.unbound, none, false, .start⟩

instance : Inhabited Link := ⟨fresh⟩

/-- The handle to use now, if the link is bound. -/
def current (link : Link) : Option LiveLink :=
  match link.phase, link.handle with
  | .bound, some handle => some ⟨handle, link.epoch⟩
  | _, _ => none

/-- Begins a bind: a new epoch, without a handle yet. -/
def beginBind (link : Link) : Link :=
  { link with phase := .binding, handle := none, epoch := link.epoch.next }

/-- Ends the bind of a cookie with the answer of the radio.  If the epoch has moved on meanwhile,
the answer is not used: a success counts as a lost link, a failure stays one. -/
def endBind (link : Link) (cookie : Epoch) (answer : Except LinkFault Handle) :
    Except LinkFault LiveLink × Link :=
  match answer with
  | .ok handle =>
    if link.epoch = cookie then
      (.ok ⟨handle, cookie⟩, { link with phase := .bound, handle := some handle })
    else (.error .disconnected, link)
  | .error fault =>
    (.error fault, if link.epoch = cookie then { link with phase := .unbound } else link)

/-- Believes a report of death if it names the present epoch, and starts the next. -/
def confirmDeath (link : Link) (cookie : Epoch) : Option Link :=
  if cookie = link.epoch then
    some { link with phase := .dead, handle := none, epoch := link.epoch.next }
  else none

/-- Notes that a new attempt to bind is scheduled, unless one is already. -/
def armRetry (link : Link) : Option Link :=
  if link.retryArmed then none else some { link with retryArmed := true }

/-- Notes that the scheduled attempt is being made. -/
def disarmRetry (link : Link) : Link := { link with retryArmed := false }

/-- There is no handle while a bind has only begun. -/
theorem current_beginBind (link : Link) : link.beginBind.current = none := rfl

/-- A report of death that names another epoch is not believed. -/
theorem confirmDeath_of_ne {link : Link} {cookie : Epoch} (h : cookie ≠ link.epoch) :
    link.confirmDeath cookie = none := by
  simp [confirmDeath, h]

/-- The end of a bind whose epoch is over leaves the link as it is. -/
theorem endBind_of_stale {link : Link} {cookie : Epoch} (h : link.epoch ≠ cookie)
    (answer : Except LinkFault Handle) : (link.endBind cookie answer).2 = link := by
  cases answer <;> simp [endBind, h]

end Link

end ModemLink
